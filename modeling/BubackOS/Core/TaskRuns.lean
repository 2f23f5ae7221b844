import BubackOS.Core.Schedule
import BubackOS.Core.VmemRuns

/-!
# Runs of the task services

Tasks are created, started, destroyed and switched in any order.  While allocations
succeed, the ready tasks are exactly the current one and the queued ones, each in one
place, and a destroyed task is in none again.
-/

namespace BubackOS

open Library TaskSystem

variable {kalloc : Kalloc} {s : TaskSystem} {t : Nat}

/-- No task is scheduled twice, and the statuses are those of tasks that exist. -/
structure Scheduled (s : TaskSystem) : Prop where
  exclusive : s.dispatcher.Exclusive
  known : ∀ t, (s.task t).status ≠ .created → t < s.tasks.count

/-- Moreover, every ready task is scheduled. -/
structure FullyScheduled (s : TaskSystem) : Prop extends Scheduled s where
  complete : s.dispatcher.Complete
  listed : s.scheduledTasks.isSome

/-! ## The queue exists -/

theorem taskDestroy_listed (listed : s.scheduledTasks.isSome) :
    (taskDestroy kalloc (some t) s).2.scheduledTasks.isSome := by
  have stopped : (s.stop t).scheduledTasks.isSome := by
    simpa [stop, setScheduled, modifyTask] using listed
  have released : (schedulerTaskNotReady kalloc (some t) s).2.scheduledTasks.isSome := by
    unfold schedulerTaskNotReady
    dsimp only
    split
    · exact schedulerClearCurrentTask_listed stopped
    · exact stopped
  exact released

/-! ## Statuses -/

/-- Tasks of the second state that exist go from `CREATED` to `READY` or end in `NOT_READY`. -/
structure Evolves (s s' : TaskSystem) : Prop where
  count : s.tasks.count ≤ s'.tasks.count
  status : ∀ t, (s'.task t).status = (s.task t).status ∨
    t < s'.tasks.count ∧
      ((s.task t).status = .created ∧ (s'.task t).status = .ready ∨ (s'.task t).status = .notReady)

namespace Evolves

variable {s' s'' : TaskSystem}

theorem of_tasks (tasks : s'.tasks = s.tasks) : Evolves s s' := by
  refine ⟨by rw [tasks], fun t => Or.inl ?_⟩
  unfold task
  rw [tasks]

theorem notReady (evolves : Evolves s s') (ended : (s.task t).status = .notReady) :
    (s'.task t).status = .notReady := by
  rcases evolves.status t with same | ⟨-, ⟨created, -⟩ | stopped⟩
  · rw [same, ended]
  · rw [created] at ended
    exact absurd ended (by decide)
  · exact stopped

theorem known (evolves : Evolves s s') (known : ∀ t, (s.task t).status ≠ .created → t < s.tasks.count)
    (begun : (s'.task t).status ≠ .created) : t < s'.tasks.count := by
  rcases evolves.status t with same | ⟨inside, -⟩
  · rw [same] at begun
    exact (known t begun).trans_le evolves.count
  · exact inside

theorem trans (first : Evolves s s') (second : Evolves s' s'') : Evolves s s'' := by
  refine ⟨first.count.trans second.count, fun t => ?_⟩
  rcases second.status t with same | ⟨inside, ⟨created, ready⟩ | stopped⟩
  · rw [same]
    rcases first.status t with same | ⟨inside, change⟩
    · exact Or.inl same
    · exact Or.inr ⟨inside.trans_le second.count, change⟩
  · rcases first.status t with same | ⟨_, ⟨_, ready'⟩ | stopped⟩
    · exact Or.inr ⟨inside, Or.inl ⟨same.symm.trans created, ready⟩⟩
    · rw [ready'] at created
      exact absurd created (by decide)
    · rw [stopped] at created
      exact absurd created (by decide)
  · exact Or.inr ⟨inside, Or.inr stopped⟩

/-- One task that exists gets another status. -/
theorem modify {change : Task → Task} (tasks : s'.tasks = s.tasks.modify t change) (inside : t < s.tasks.count)
    (allowed : (s.task t).status = .created ∧ (change (s.task t)).status = .ready ∨
      (change (s.task t)).status = .notReady) : Evolves s s' := by
  refine ⟨by rw [tasks]; exact Nat.le_refl _, fun u => ?_⟩
  have changed : s'.task u = if u = t then change (s.task u) else s.task u := by
    unfold task
    rw [tasks]
    exact Store.modify_get _ _ _ _
  by_cases same : u = t
  · subst same
    rw [if_pos rfl] at changed
    rw [changed]
    exact Or.inr ⟨by rw [tasks]; exact inside, allowed⟩
  · rw [if_neg same] at changed
    rw [changed]
    exact Or.inl rfl

end Evolves

theorem taskDestroy_evolves (inside : t < s.tasks.count) : Evolves s (taskDestroy kalloc (some t) s).2 :=
  Evolves.modify taskDestroy_tasks inside (Or.inr rfl)

theorem schedulerSwitchTask_evolves : Evolves s (schedulerSwitchTask kalloc s).2 :=
  Evolves.of_tasks schedulerSwitchTask_tasks

/-- The tasks after a successful `task_run`. -/
theorem started_tasks (t : Nat) (k : Kernel) (context : NativeTask) :
    (schedulerTaskReady kalloc (some t)
      ((s.setKernel k).modifyTask t fun task => { task with nativeTask := some context })).2.tasks =
    s.tasks.modify t fun task => { task with nativeTask := some context, status := .ready } := by
  rw [schedulerTaskReady_tasks]
  unfold modifyTask setKernel
  dsimp only
  rw [Store.modify_modify]
  rfl

theorem started_dispatcher (kalloc : Kalloc) (s : TaskSystem) (t : Nat) (k : Kernel) (context : NativeTask) :
    (schedulerTaskReady kalloc (some t)
      ((s.setKernel k).modifyTask t fun task => { task with nativeTask := some context })).2.dispatcher =
    s.dispatcher.enroll ((s.setKernel k).nodeServed kalloc) t := by
  refine schedulerTaskReady_dispatcher.trans (congrArg _ (SameSchedule.dispatcher ⟨fun u => ?_, rfl, rfl⟩))
  by_cases same : u = t
  · rw [same, modifyTask_task_self]
    rfl
  · rw [modifyTask_task_of_ne same]
    rfl

theorem taskSetKernelMode_same (task : Option Nat) (s : TaskSystem) :
    SameSchedule s (taskSetKernelMode task s).2 ∧ (taskSetKernelMode task s).2.tasks.count = s.tasks.count := by
  unfold taskSetKernelMode
  cases task with
  | none => exact ⟨⟨fun t => rfl, rfl, rfl⟩, rfl⟩
  | some u =>
      dsimp only
      split
      · exact ⟨⟨fun t => rfl, rfl, rfl⟩, rfl⟩
      · refine ⟨⟨fun t => ?_, rfl, rfl⟩, rfl⟩
        by_cases same : t = u
        · rw [same, modifyTask_task_self]
        · rw [modifyTask_task_of_ne same]

namespace Scheduled

theorem of_same {s' : TaskSystem} (scheduled : Scheduled s) (same : SameSchedule s s')
    (count : s.tasks.count ≤ s'.tasks.count) : Scheduled s' := by
  refine ⟨?_, fun t begun => ?_⟩
  · rw [same.dispatcher]
    exact scheduled.exclusive
  · rw [same.status] at begun
    exact (scheduled.known t begun).trans_le count

theorem switch (scheduled : Scheduled s) : Scheduled (schedulerSwitchTask kalloc s).2 where
  exclusive := by
    rw [schedulerSwitchTask_dispatcher]
    exact scheduled.exclusive.switch
  known := fun _ => schedulerSwitchTask_evolves.known scheduled.known

theorem destroy (scheduled : Scheduled s) (inside : t < s.tasks.count) :
    Scheduled (taskDestroy kalloc (some t) s).2 where
  exclusive := by
    rw [taskDestroy_dispatcher]
    exact scheduled.exclusive.withdraw
  known := fun _ => (taskDestroy_evolves inside).known scheduled.known

/-- A scheduled task exists. -/
theorem inside (scheduled : Scheduled s) (placed : s.dispatcher.Placed t) : t < s.tasks.count := by
  have ready : (s.task t).status = .ready := of_decide_eq_true (scheduled.exclusive.ready t placed)
  exact scheduled.known t (by rw [ready]; decide)

/-- A new task is not scheduled, and its reference was not in use. -/
theorem create_same (scheduled : Scheduled s) (kalloc : Kalloc) (name : String) (vmem : Option Nat) :
    SameSchedule s (taskCreate kalloc name vmem s).2 ∧
      s.tasks.count ≤ (taskCreate kalloc name vmem s).2.tasks.count := by
  obtain ⟨k, -, failed | ⟨id, mapper, created⟩⟩ :=
    taskCreate_cases kalloc s (Q := fun _ => True) name vmem trivial (fun _ _ _ => trivial)
  · rw [failed]
    exact ⟨⟨fun t => rfl, rfl, rfl⟩, Nat.le_refl _⟩
  · rw [created]
    refine ⟨⟨fun t => ?_, rfl, rfl⟩, Nat.le_succ _⟩
    by_cases isNew : t = s.tasks.count
    · have unused : (s.task t).status = .created := by
        by_contra begun
        exact absurd (scheduled.known t begun) (by omega)
      rw [unused, isNew]
      unfold task
      rw [Store.new_get_self]
      rfl
    · unfold task
      rw [Store.new_get_of_ne isNew]

theorem start (scheduled : Scheduled s) (kalloc : Kalloc) (k : Kernel) (context : NativeTask) (inside : t < s.tasks.count)
    (created : (s.task t).status = .created) : Scheduled (schedulerTaskReady kalloc (some t)
      ((s.setKernel k).modifyTask t fun task => { task with nativeTask := some context })).2 where
  exclusive := by
    rw [started_dispatcher]
    refine scheduled.exclusive.enroll (decide_eq_false ?_)
    rw [created]
    decide
  known := fun _ => (Evolves.modify (started_tasks t k context) inside (Or.inl ⟨created, rfl⟩)).known scheduled.known

end Scheduled

/-! ## Allocations that succeed -/

theorem nativeVmemSwitch_alloc (v : Nat) (k : Kernel) : (nativeVmemSwitch v k).alloc = k.alloc := by
  unfold nativeVmemSwitch
  split <;> rfl

/-- The node for the current task was there if the log shows no failed call. -/
theorem schedulerClearCurrentTask_served (honest : Honest kalloc) (exclusive : s.dispatcher.Exclusive)
    (listed : s.scheduledTasks.isSome)
    (served : Served (schedulerClearCurrentTask kalloc s).kernel.alloc.blocks) :
    s.nodeServed kalloc = true ∨ s.dispatcher.current = none := by
  cases current : s.currentTask with
  | none => exact Or.inr current
  | some c =>
      have ready : (s.task c).status = .ready := of_decide_eq_true (exclusive.ready c (Or.inl current))
      unfold schedulerClearCurrentTask at served
      rw [current] at served
      dsimp only at served
      rw [if_pos ready] at served
      exact Or.inl (nodeServed_of_served honest listed served)

theorem schedulerSwitchTask_served (honest : Honest kalloc) (exclusive : s.dispatcher.Exclusive)
    (listed : s.scheduledTasks.isSome)
    (served : Served (schedulerSwitchTask kalloc s).2.kernel.alloc.blocks) :
    s.nodeServed kalloc = true ∨ s.dispatcher.current = none := by
  unfold schedulerSwitchTask at served
  cases queue : s.queue with
  | nil =>
      rw [getNextTask_of_nil queue] at served
      exact schedulerClearCurrentTask_served honest exclusive listed served
  | cons t rest =>
      have other : s.currentTask ≠ some t :=
        exclusive.apart t (by rw [show s.dispatcher.queue = t :: rest from queue]; exact List.mem_cons_self)
      have current : (s.setScheduled (some rest)).currentTask = s.currentTask := rfl
      have shorter : (s.setScheduled (some rest)).dispatcher.Exclusive := exclusive.tail queue
      rw [getNextTask_of_cons queue] at served
      dsimp only at served
      rw [current, if_neg other] at served
      rw [← nodeServed_of_cons queue]
      refine schedulerClearCurrentTask_served honest (s := s.setScheduled (some rest)) shorter rfl ?_
      unfold schedulerLoadTask at served
      dsimp only at served
      split at served
      · have alloc := nativeVmemSwitch_alloc _ _ ▸ served
        exact alloc
      · exact served

namespace FullyScheduled

theorem switch (honest : Honest kalloc) (scheduled : FullyScheduled s)
    (served : Served (schedulerSwitchTask kalloc s).2.kernel.alloc.blocks) :
    FullyScheduled (schedulerSwitchTask kalloc s).2 where
  toScheduled := scheduled.toScheduled.switch
  complete := by
    rw [schedulerSwitchTask_dispatcher]
    exact scheduled.complete.switch_iff.mpr
      ((schedulerSwitchTask_served honest scheduled.exclusive scheduled.listed served).elim Or.inl
        Dispatcher.spares_of_idle)
  listed := schedulerSwitchTask_listed scheduled.listed

theorem destroy (scheduled : FullyScheduled s) (inside : t < s.tasks.count) :
    FullyScheduled (taskDestroy kalloc (some t) s).2 where
  toScheduled := scheduled.toScheduled.destroy inside
  complete := by
    rw [taskDestroy_dispatcher]
    exact scheduled.complete.withdraw
  listed := taskDestroy_listed scheduled.listed

theorem of_same {s' : TaskSystem} (scheduled : FullyScheduled s) (same : SameSchedule s s')
    (count : s.tasks.count ≤ s'.tasks.count) : FullyScheduled s' where
  toScheduled := scheduled.toScheduled.of_same same count
  complete := by
    rw [same.dispatcher]
    exact scheduled.complete
  listed := by
    rw [same.scheduledTasks]
    exact scheduled.listed

/-- Faults and the exit call destroy the current task, if there is one, and switch. -/
theorem destroyCurrent (honest : Honest kalloc) (scheduled : FullyScheduled s)
    (served : Served (schedulerSwitchTask kalloc (taskDestroy kalloc s.currentTask s).2).2.kernel.alloc.blocks) :
    FullyScheduled (schedulerSwitchTask kalloc (taskDestroy kalloc s.currentTask s).2).2 := by
  cases current : s.currentTask with
  | none =>
      rw [current] at served
      exact scheduled.switch honest served
  | some c =>
      rw [current] at served
      exact (scheduled.destroy (scheduled.inside (Or.inl current))).switch honest served

/-- A created task that gets its first context and is made ready. -/
theorem start (honest : Honest kalloc) (scheduled : FullyScheduled s) (k : Kernel) (context : NativeTask)
    (inside : t < s.tasks.count)
    (created : (s.task t).status = .created)
    (served : Served (schedulerTaskReady kalloc (some t)
      ((s.setKernel k).modifyTask t fun task => { task with nativeTask := some context })).2.kernel.alloc.blocks) :
    FullyScheduled (schedulerTaskReady kalloc (some t)
      ((s.setKernel k).modifyTask t fun task => { task with nativeTask := some context })).2 where
  toScheduled := scheduled.toScheduled.start kalloc k context inside created
  complete := by
    have begun : ((s.setKernel k).modifyTask t fun task =>
        { task with nativeTask := some context }).nodeServed kalloc = true :=
      schedulerTaskReady_served honest scheduled.listed served
    have kept : (s.setKernel k).nodeServed kalloc = true := begun
    rw [started_dispatcher, kept]
    exact scheduled.complete.enroll_iff.mpr (Or.inl rfl)
  listed := scheduledTasksAppend_listed scheduled.listed

theorem run (honest : Honest kalloc) (scheduled : FullyScheduled s) {task : Option Nat} {code : Nat}
    (known : ∀ t ∈ task, t < s.tasks.count)
    (served : Served (taskRun kalloc task code s).2.kernel.alloc.blocks) :
    FullyScheduled (taskRun kalloc task code s).2 := by
  rcases taskRun_cases kalloc s task code (Q := fun _ => True) trivial (fun _ => trivial)
    (fun _ _ _ => trivial) with ⟨k, -, failed⟩ | ⟨t, k, stack, -, isTask, created, -, done⟩
  · rw [failed]
    exact scheduled.of_same ⟨fun _ => rfl, rfl, rfl⟩ (Nat.le_refl _)
  · rw [done] at served ⊢
    exact scheduled.start honest k _ (known t isTask) created served

end FullyScheduled

/-! ## Runs -/

/-- A step of the task services. -/
inductive TaskOp where
  | create (name : String) (vmem : Option Nat)
  | setKernelMode (task : Option Nat)
  | run (task : Option Nat) (code : Nat)
  | destroy (task : Option Nat)
  | taskExit
  | protectionFault
  | pageFault
  | invalidOperation
  | switch

/-- The state after a step. -/
def TaskOp.apply (kalloc : Kalloc) (s : TaskSystem) : TaskOp → TaskSystem
  | create name vmem => (taskCreate kalloc name vmem s).2
  | setKernelMode task => (taskSetKernelMode task s).2
  | run task code => (taskRun kalloc task code s).2
  | destroy task => (taskDestroy kalloc task s).2
  | taskExit => (syscallHandlerTaskExit kalloc s).2
  | protectionFault => (handleProtectionFault kalloc s).2
  | pageFault => (handlePageFault kalloc s).2
  | invalidOperation => (handleInvalidOperation kalloc s).2
  | switch => (schedulerSwitchTask kalloc s).2

/-- Pointers to tasks are `NULL` or valid. -/
def TaskOp.Valid (s : TaskSystem) : TaskOp → Prop
  | setKernelMode task | run task _ | destroy task => ∀ t ∈ task, t < s.tasks.count
  | _ => True

/-- The tasks a step destroys. -/
def TaskOp.destroys (s : TaskSystem) : TaskOp → List Nat
  | destroy task => task.toList
  | taskExit | protectionFault | pageFault | invalidOperation => s.currentTask.toList
  | _ => []

/-- The systems that runs from the boot reach while allocations succeed, with the tasks
destroyed so far. -/
inductive TaskRun (kalloc : Kalloc) : List Nat → TaskSystem → Prop where
  | boot (k : Kernel) (served : (schedulerInitialise kalloc (TaskSystem.start k)).1 = true) :
      TaskRun kalloc [] (taskServiceInitialize kalloc (schedulerInitialise kalloc (TaskSystem.start k)).2)
  | step {destroyed : List Nat} {s : TaskSystem} (reached : TaskRun kalloc destroyed s) (op : TaskOp)
      (valid : op.Valid s) (served : Served (op.apply kalloc s).kernel.alloc.blocks) :
      TaskRun kalloc (op.destroys s ++ destroyed) (op.apply kalloc s)

/-! ## What a step keeps -/

theorem handleFault_eq (kalloc : Kalloc) (s : TaskSystem) :
    handleFault kalloc s = schedulerSwitchTask kalloc (taskDestroy kalloc s.currentTask s).2 := by
  unfold handleFault
  cases s.currentTask <;> rfl

theorem destroyCurrent_evolves (scheduled : Scheduled s) :
    Evolves s (schedulerSwitchTask kalloc (taskDestroy kalloc s.currentTask s).2).2 := by
  refine Evolves.trans ?_ schedulerSwitchTask_evolves
  cases current : s.currentTask with
  | none => exact Evolves.of_tasks rfl
  | some c => exact taskDestroy_evolves (scheduled.inside (Or.inl current))

theorem handleFault_evolves (scheduled : Scheduled s) : Evolves s (handleFault kalloc s).2 := by
  rw [handleFault_eq]
  exact destroyCurrent_evolves scheduled

theorem FullyScheduled.fault (honest : Honest kalloc) (scheduled : FullyScheduled s)
    (served : Served (handleFault kalloc s).2.kernel.alloc.blocks) : FullyScheduled (handleFault kalloc s).2 := by
  rw [handleFault_eq] at served ⊢
  exact scheduled.destroyCurrent honest served

/-- A destroyed task has its last status. -/
theorem taskDestroy_ends : ((taskDestroy kalloc (some t) s).2.task t).status = .notReady := by
  unfold task
  rw [taskDestroy_tasks, Store.modify_get_self]

theorem TaskOp.evolves (scheduled : Scheduled s) (op : TaskOp) (valid : op.Valid s) : Evolves s (op.apply kalloc s) := by
  cases op with
  | create name vmem =>
      obtain ⟨same, count⟩ := scheduled.create_same kalloc name vmem
      exact ⟨count, fun t => Or.inl (same.status t)⟩
  | setKernelMode task =>
      obtain ⟨same, count⟩ := taskSetKernelMode_same task s
      exact ⟨count.ge, fun t => Or.inl (same.status t)⟩
  | run task code =>
      rcases taskRun_cases kalloc s task code (Q := fun _ => True) trivial (fun _ => trivial)
        (fun _ _ _ => trivial) with ⟨k, -, failed⟩ | ⟨t, k, stack, -, isTask, created, -, done⟩
      · exact Evolves.of_tasks (by rw [TaskOp.apply, failed]; rfl)
      · rw [TaskOp.apply, done]
        exact Evolves.modify (started_tasks t k _) (valid t isTask) (Or.inl ⟨created, rfl⟩)
  | destroy task =>
      cases task with
      | none => exact Evolves.of_tasks rfl
      | some t => exact taskDestroy_evolves (valid t rfl)
  | taskExit => exact destroyCurrent_evolves scheduled
  | protectionFault | pageFault | invalidOperation => exact handleFault_evolves scheduled
  | switch => exact schedulerSwitchTask_evolves

theorem TaskOp.fullyScheduled (honest : Honest kalloc) (scheduled : FullyScheduled s) (op : TaskOp) (valid : op.Valid s)
    (served : Served (op.apply kalloc s).kernel.alloc.blocks) : FullyScheduled (op.apply kalloc s) := by
  cases op with
  | create name vmem =>
      obtain ⟨same, count⟩ := scheduled.create_same kalloc name vmem
      exact scheduled.of_same same count
  | setKernelMode task =>
      obtain ⟨same, count⟩ := taskSetKernelMode_same task s
      exact scheduled.of_same same count.ge
  | run task code => exact scheduled.run honest valid served
  | destroy task =>
      cases task with
      | none => exact scheduled
      | some t => exact scheduled.destroy (valid t rfl)
  | taskExit => exact scheduled.destroyCurrent honest served
  | protectionFault | pageFault | invalidOperation => exact scheduled.fault honest served
  | switch => exact scheduled.switch honest served

theorem TaskOp.destroys_end (op : TaskOp) (destroyed : t ∈ op.destroys s) :
    ((op.apply kalloc s).task t).status = .notReady := by
  have current : s.currentTask = some t →
      ((schedulerSwitchTask kalloc (taskDestroy kalloc s.currentTask s).2).2.task t).status = .notReady := by
    intro isCurrent
    rw [isCurrent]
    exact schedulerSwitchTask_evolves.notReady taskDestroy_ends
  cases op with
  | destroy task =>
      rw [Option.mem_toList.mp destroyed]
      exact taskDestroy_ends
  | taskExit => exact current (Option.mem_toList.mp destroyed)
  | protectionFault | pageFault | invalidOperation =>
      have ends := current (Option.mem_toList.mp destroyed)
      rw [← handleFault_eq] at ends
      exact ends
  | create | setKernelMode | run | switch => exact absurd destroyed List.not_mem_nil

theorem boot_fullyScheduled (k : Kernel) (served : (schedulerInitialise kalloc (TaskSystem.start k)).1 = true) :
    FullyScheduled (taskServiceInitialize kalloc (schedulerInitialise kalloc (TaskSystem.start k)).2) where
  exclusive := Dispatcher.exclusive_of_idle rfl (linkedlistCreate_items kalloc k)
  known := fun _ begun => absurd rfl begun
  complete := by
    intro t ready
    have created : (taskServiceInitialize kalloc (schedulerInitialise kalloc (TaskSystem.start k)).2).dispatcher.ready
        t = false := rfl
    rw [created] at ready
    exact absurd ready (by simp)
  listed := served

/-- The invariant of the runs. -/
theorem TaskRun.invariant (honest : Honest kalloc) {destroyed : List Nat} (run : TaskRun kalloc destroyed s) :
    FullyScheduled s ∧ ∀ t ∈ destroyed, (s.task t).status = .notReady := by
  induction run with
  | boot k served => exact ⟨boot_fullyScheduled k served, fun t absurdity => absurd absurdity List.not_mem_nil⟩
  | @step destroyed s reached op valid served ih =>
      refine ⟨TaskOp.fullyScheduled honest ih.1 op valid served, fun t member => ?_⟩
      rcases List.mem_append.mp member with now | before
      · exact op.destroys_end now
      · exact (op.evolves ih.1.toScheduled valid).notReady (ih.2 t before)

/-- In every run with allocations that succeed: no task is queued twice; a task is `READY` if and
only if it is the current task or queued, and it is never both; other tasks are neither; and a
destroyed task is neither from then on. -/
theorem ready_iff_scheduled {destroyed : List Nat} (run : TaskRun BubackOS.kalloc destroyed s) :
    s.queue.Nodup ∧
    (∀ t, (s.task t).status = .ready ↔ s.currentTask = some t ∨ t ∈ s.queue) ∧
    (∀ t, ¬ (s.currentTask = some t ∧ t ∈ s.queue)) ∧
    (∀ t, (s.task t).status = .created ∨ (s.task t).status = .notReady →
      s.currentTask ≠ some t ∧ t ∉ s.queue) ∧
    ∀ t ∈ destroyed, s.currentTask ≠ some t ∧ t ∉ s.queue := by
  obtain ⟨scheduled, ended⟩ := run.invariant kalloc_honest
  have iff : ∀ t, (s.task t).status = .ready ↔ s.currentTask = some t ∨ t ∈ s.queue := fun t =>
    ⟨fun ready => scheduled.complete t (decide_eq_true ready),
      fun placed => of_decide_eq_true (scheduled.exclusive.ready t placed)⟩
  have idle : ∀ t, (s.task t).status ≠ .ready → s.currentTask ≠ some t ∧ t ∉ s.queue := fun t other =>
    not_or.mp (mt (iff t).mpr other)
  refine ⟨scheduled.exclusive.nodup, iff, fun t both => scheduled.exclusive.apart t both.2 both.1, ?_, ?_⟩
  · rintro t (created | stopped)
    · exact idle t (by rw [created]; decide)
    · exact idle t (by rw [stopped]; decide)
  · exact fun t member => idle t (by rw [ended t member]; decide)

/-- A task in the kernel's address space. -/
def sampleTask : TaskSystem :=
  TaskOp.apply BubackOS.kalloc (TaskOp.apply BubackOS.kalloc (TaskOp.apply BubackOS.kalloc (taskServiceInitialize BubackOS.kalloc
    (schedulerInitialise BubackOS.kalloc (TaskSystem.start (vmemStart BubackOS.kalloc sampleKernel))).2)
    (.create "init" (some 0))) (.run (some 0) 0x400000)) .switch

theorem sampleTask_run : TaskRun BubackOS.kalloc [] sampleTask := by
  refine .step (.step (.step (.boot (vmemStart BubackOS.kalloc sampleKernel) ?_)
    (.create "init" (some 0)) trivial ?_) (.run (some 0) 0x400000) ?_ ?_) .switch trivial ?_
  · decide +kernel
  · decide +kernel
  · rintro t ⟨⟩
    decide +kernel
  · decide +kernel
  · decide +kernel

/-- The task faults, and is gone. -/
theorem ready_iff_scheduled_sampleTask :
    sampleTask.currentTask = some 0 ∧ (TaskOp.pageFault.apply BubackOS.kalloc sampleTask).currentTask ≠ some 0 := by
  have faulted := sampleTask_run.step .pageFault trivial (by decide +kernel)
  have running : sampleTask.currentTask = some 0 := by decide +kernel
  have destroyed : 0 ∈ TaskOp.pageFault.destroys sampleTask ++ [] := by
    simp [TaskOp.destroys, running]
  exact ⟨running, ((ready_iff_scheduled faulted).2.2.2.2 0 destroyed).1⟩

end BubackOS
