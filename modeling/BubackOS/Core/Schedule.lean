import BubackOS.Core.KallocBlocks
import BubackOS.Core.Task
import BubackOS.Library.Dispatcher

/-!
# The scheduler as a dispatcher

The services act on the status of the tasks, the current task and the ready queue as the
operations of a dispatcher; an element is kept when the queue's list node was allocated.
-/

namespace BubackOS

open Library

variable {kalloc : Kalloc} {s : TaskSystem} {t u : Nat}

namespace TaskSystem

@[simp] theorem setKernel_task (k : Kernel) : (s.setKernel k).task t = s.task t := rfl

@[simp] theorem setCurrent_task (task : Option Nat) : (s.setCurrent task).task t = s.task t := rfl

@[simp] theorem setScheduled_task (list : LinkedList Nat) : (s.setScheduled list).task t = s.task t := rfl

@[simp] theorem modifyTask_task_self (change : Task → Task) : (s.modifyTask t change).task t = change (s.task t) :=
  Store.modify_get_self _ _ _

theorem modifyTask_task_of_ne {change : Task → Task} (other : u ≠ t) :
    (s.modifyTask t change).task u = s.task u := Store.modify_get_of_ne other

/-- The view of the system as a dispatcher. -/
def dispatcher (s : TaskSystem) : Dispatcher Nat where
  ready := fun t => (s.task t).status = .ready
  current := s.currentTask
  queue := s.queue

/-- Whether the next append to the ready queue succeeds. -/
def nodeServed (kalloc : Kalloc) (s : TaskSystem) : Bool :=
  s.scheduledTasks.isSome && decide ((kalloc sizeofLinkedlistNode s.kernel).1 ≠ 0)

theorem dispatcher_of_tasks {s' : TaskSystem} (tasks : s'.tasks = s.tasks) :
    s'.dispatcher = { s.dispatcher with current := s'.currentTask, queue := s'.queue } := by
  unfold dispatcher task
  rw [tasks]

/-- The same tasks, up to what the scheduler does not look at. -/
structure SameSchedule (s s' : TaskSystem) : Prop where
  status : ∀ t, (s'.task t).status = (s.task t).status
  currentTask : s'.currentTask = s.currentTask
  scheduledTasks : s'.scheduledTasks = s.scheduledTasks

theorem SameSchedule.dispatcher {s' : TaskSystem} (same : SameSchedule s s') : s'.dispatcher = s.dispatcher := by
  unfold TaskSystem.dispatcher TaskSystem.queue
  rw [same.currentTask, same.scheduledTasks]
  congr 1
  funext t
  rw [same.status]

end TaskSystem

open TaskSystem

/-! ## The ready queue -/

theorem scheduledTasksAppend_tasks : (scheduledTasksAppend kalloc t s).2.tasks = s.tasks := by
  unfold scheduledTasksAppend
  dsimp only
  split
  · rfl
  · split <;> rfl

theorem scheduledTasksAppend_currentTask :
    (scheduledTasksAppend kalloc t s).2.currentTask = s.currentTask := by
  unfold scheduledTasksAppend
  dsimp only
  split
  · rfl
  · split <;> rfl

theorem scheduledTasksAppend_queue : (scheduledTasksAppend kalloc t s).2.queue =
    if s.nodeServed kalloc then s.queue ++ [t] else s.queue := by
  unfold scheduledTasksAppend nodeServed TaskSystem.queue
  cases list : s.scheduledTasks with
  | none => exact congrArg LinkedList.items list
  | some items =>
      dsimp only [Option.isNone]
      by_cases failed : (kalloc sizeofLinkedlistNode s.kernel).1 = 0
      · simp [failed, setKernel, list]
      · simp [failed, setKernel, setScheduled, LinkedList.items]

/-- A queue that exists, and a log that shows no failed call. -/
theorem nodeServed_of_served (honest : Honest kalloc) (listed : s.scheduledTasks.isSome)
    (served : Served (scheduledTasksAppend kalloc t s).2.kernel.alloc.blocks) : s.nodeServed kalloc = true := by
  obtain ⟨items, list⟩ := Option.isSome_iff_exists.mp listed
  have logged : Served (kalloc sizeofLinkedlistNode s.kernel).2.alloc.blocks := by
    unfold scheduledTasksAppend at served
    rw [list] at served
    dsimp only [Option.isNone] at served
    generalize kalloc sizeofLinkedlistNode s.kernel = node at served ⊢
    split at served
    · rename_i absurdity
      exact absurd absurdity (by simp)
    · split at served <;> exact served
  unfold nodeServed
  rw [list]
  simpa using honest _ _ logged

/-! ## The scheduler -/

theorem schedulerClearCurrentTask_tasks : (schedulerClearCurrentTask kalloc s).tasks = s.tasks := by
  unfold schedulerClearCurrentTask
  cases s.currentTask with
  | none => rfl
  | some c =>
      dsimp only
      split
      · exact scheduledTasksAppend_tasks
      · rfl

theorem schedulerClearCurrentTask_currentTask : (schedulerClearCurrentTask kalloc s).currentTask = none := by
  unfold schedulerClearCurrentTask
  cases current : s.currentTask with
  | none => exact current
  | some c => rfl

theorem schedulerClearCurrentTask_queue : (schedulerClearCurrentTask kalloc s).queue =
    if s.nodeServed kalloc then s.queue ++ s.currentTask.toList.filter s.dispatcher.ready else s.queue := by
  unfold schedulerClearCurrentTask
  cases current : s.currentTask with
  | none => simp
  | some c =>
      dsimp only
      by_cases ready : (s.task c).status = .ready
      · rw [if_pos ready]
        have kept : s.dispatcher.ready c = true := decide_eq_true ready
        rw [Option.toList_some, List.filter_singleton, kept]
        exact scheduledTasksAppend_queue
      · rw [if_neg ready]
        have dropped : s.dispatcher.ready c = false := decide_eq_false ready
        rw [Option.toList_some, List.filter_singleton, dropped]
        simp [setCurrent, queue]

theorem schedulerClearCurrentTask_dispatcher :
    (schedulerClearCurrentTask kalloc s).dispatcher = s.dispatcher.clear (s.nodeServed kalloc) := by
  rw [dispatcher_of_tasks schedulerClearCurrentTask_tasks, schedulerClearCurrentTask_currentTask,
    schedulerClearCurrentTask_queue]
  rfl

theorem stop_dispatcher :
    (s.stop t).dispatcher = { s.dispatcher.withdraw t with current := s.currentTask } := by
  refine Dispatcher.ext (funext fun u => ?_) rfl (items_erase s.scheduledTasks t)
  by_cases same : u = t
  · have marked : ((s.stop t).task t).status = .notReady := by
      simp [stop]
    simp [dispatcher, Dispatcher.withdraw, same, marked]
  · have kept : (s.stop t).task u = s.task u := by
      simp [stop, modifyTask_task_of_ne same]
    simp [dispatcher, Dispatcher.withdraw, same, kept]

/-- A stopped task is not queued again: it is marked before the current task is cleared. -/
theorem schedulerTaskNotReady_dispatcher :
    (schedulerTaskNotReady kalloc (some t) s).2.dispatcher = s.dispatcher.withdraw t := by
  have stopped : (s.stop t).dispatcher.ready t = false := by
    rw [stop_dispatcher]
    exact Dispatcher.withdraw_ready_self
  have current : (s.stop t).currentTask = s.currentTask := rfl
  unfold schedulerTaskNotReady
  dsimp only
  by_cases running : s.currentTask = some t
  · rw [current, if_pos running, schedulerClearCurrentTask_dispatcher,
      Dispatcher.clear_of_not_ready running stopped, stop_dispatcher]
    simp [Dispatcher.withdraw, dispatcher, running]
  · rw [current, if_neg running, stop_dispatcher]
    simp [Dispatcher.withdraw, dispatcher, running]

theorem schedulerTaskReady_dispatcher : (schedulerTaskReady kalloc (some t) s).2.dispatcher =
    s.dispatcher.enroll (s.nodeServed kalloc) t := by
  unfold schedulerTaskReady
  dsimp only
  rw [dispatcher_of_tasks scheduledTasksAppend_tasks, scheduledTasksAppend_currentTask, scheduledTasksAppend_queue]
  refine Dispatcher.ext (funext fun u => ?_) rfl rfl
  by_cases same : u = t
  · simp [dispatcher, Dispatcher.enroll, same]
  · simp [dispatcher, Dispatcher.enroll, same, modifyTask_task_of_ne same]

theorem schedulerTaskReady_served (honest : Honest kalloc) (listed : s.scheduledTasks.isSome)
    (served : Served (schedulerTaskReady kalloc (some t) s).2.kernel.alloc.blocks) :
    s.nodeServed kalloc = true := by
  have marked : (s.modifyTask t fun task => { task with status := .ready }).nodeServed kalloc = true :=
    nodeServed_of_served honest listed served
  exact marked

theorem schedulerLoadTask_dispatcher : (schedulerLoadTask kalloc t s).dispatcher =
    s.dispatcher.clear (s.nodeServed kalloc) := by
  unfold schedulerLoadTask
  dsimp only
  split <;> exact schedulerClearCurrentTask_dispatcher

theorem getNextTask_of_nil (queue : s.queue = []) : getNextTask s = (none, s) := by
  unfold getNextTask
  rw [queue]

/-- The queue after its first task is taken out. -/
theorem getNextTask_of_cons {rest : List Nat} (queue : s.queue = t :: rest) :
    getNextTask s = (some t, s.setScheduled (some rest)) := by
  unfold getNextTask
  rw [queue]

theorem nodeServed_of_cons {rest : List Nat} (queue : s.queue = t :: rest) :
    (s.setScheduled (some rest)).nodeServed kalloc = s.nodeServed kalloc := by
  have list : s.scheduledTasks.isSome := by
    unfold TaskSystem.queue at queue
    cases list : s.scheduledTasks with
    | none =>
        rw [list] at queue
        exact absurd queue (by simp [LinkedList.items])
    | some items => rfl
  unfold nodeServed
  rw [list]
  rfl

theorem schedulerSwitchTask_dispatcher : (schedulerSwitchTask kalloc s).2.dispatcher =
    s.dispatcher.switch (s.nodeServed kalloc) := by
  unfold schedulerSwitchTask Dispatcher.switch
  cases queue : s.queue with
  | nil =>
      have empty : s.dispatcher.queue = [] := queue
      rw [getNextTask_of_nil queue, empty]
      exact schedulerClearCurrentTask_dispatcher
  | cons t rest =>
      have first : s.dispatcher.queue = t :: rest := queue
      have current : (s.setScheduled (some rest)).currentTask = s.dispatcher.current := rfl
      rw [getNextTask_of_cons queue, first]
      dsimp only
      rw [current]
      split
      · rename_i running
        exact Dispatcher.ext rfl running.symm rfl
      · have loaded : (schedulerLoadTask kalloc t (s.setScheduled (some rest))).dispatcher =
            Dispatcher.clear (s.nodeServed kalloc) { s.dispatcher with queue := rest } := by
          rw [schedulerLoadTask_dispatcher, nodeServed_of_cons queue]
          rfl
        rw [← loaded]
        rfl

/-! ## The task services -/

theorem schedulerTaskNotReady_tasks : (schedulerTaskNotReady kalloc (some t) s).2.tasks =
    s.tasks.modify t fun task => { task with status := .notReady } := by
  unfold schedulerTaskNotReady
  dsimp only
  split
  · exact schedulerClearCurrentTask_tasks
  · rfl

theorem taskDestroy_tasks : (taskDestroy kalloc (some t) s).2.tasks =
    s.tasks.modify t fun task => { task with status := .notReady } := schedulerTaskNotReady_tasks

theorem taskDestroy_dispatcher : (taskDestroy kalloc (some t) s).2.dispatcher = s.dispatcher.withdraw t :=
  schedulerTaskNotReady_dispatcher

theorem schedulerTaskReady_tasks : (schedulerTaskReady kalloc (some t) s).2.tasks =
    s.tasks.modify t fun task => { task with status := .ready } := scheduledTasksAppend_tasks

theorem schedulerLoadTask_tasks : (schedulerLoadTask kalloc t s).tasks = s.tasks := by
  unfold schedulerLoadTask
  dsimp only
  split <;> exact schedulerClearCurrentTask_tasks

theorem schedulerSwitchTask_tasks : (schedulerSwitchTask kalloc s).2.tasks = s.tasks := by
  unfold schedulerSwitchTask
  cases queue : s.queue with
  | nil =>
      rw [getNextTask_of_nil queue]
      exact schedulerClearCurrentTask_tasks
  | cons t rest =>
      rw [getNextTask_of_cons queue]
      dsimp only
      split
      · rfl
      · exact schedulerLoadTask_tasks

theorem nativeTaskCreate_cases (kalloc : Kalloc) (s : TaskSystem) (t code stack : Nat) (permissionMode : Bool)
    (userdata : Nat) :
    nativeTaskCreate kalloc t code stack permissionMode userdata s =
      (false, s.setKernel (kalloc sizeofNativeTask s.kernel).2) ∨
    nativeTaskCreate kalloc t code stack permissionMode userdata s =
      (true, (s.setKernel (kalloc sizeofNativeTask s.kernel).2).modifyTask t fun task =>
        { task with nativeTask := some (.initial code stack permissionMode userdata) }) := by
  by_cases failed : (kalloc sizeofNativeTask s.kernel).1 = 0
  · exact Or.inl (if_pos failed)
  · exact Or.inr (if_neg failed)

/-- `task_run` either fails and leaves the tasks alone, or gives a created task its first context
and makes it ready.  What holds of the memory after the region and the context are allocated is
whatever the allocator keeps. -/
theorem taskRun_cases (kalloc : Kalloc) (s : TaskSystem) (task : Option Nat) (code : Nat) {Q : Kernel → Prop}
    (start : Q s.kernel)
    (region : ∀ vmem, Q (vmemRegionCreate kalloc vmem (some "?-stack") 0 taskDefaultStackSize true true true
      s.kernel).2)
    (call : ∀ size k, Q k → Q (kalloc size k).2) :
    (∃ k, Q k ∧ taskRun kalloc task code s = (false, s.setKernel k)) ∨
    ∃ t k stack, Q k ∧ task = some t ∧ (s.task t).status = .created ∧ (s.task t).memoryHandler.isSome ∧
      taskRun kalloc task code s = (true, (schedulerTaskReady kalloc (some t)
        ((s.setKernel k).modifyTask t fun task => { task with
          nativeTask := some (.initial code stack (s.task t).kernel (s.task t).userdata) })).2) := by
  cases task with
  | none => exact Or.inl ⟨s.kernel, start, rfl⟩
  | some t =>
      unfold taskRun
      by_cases created : (s.task t).status = .created
      · have kept := region (s.task t).memoryHandler
        dsimp only
        rw [if_neg (not_not.mpr created)]
        have memory : (vmemRegionCreate kalloc (s.task t).memoryHandler (some "?-stack") 0 taskDefaultStackSize
            true true true s.kernel).1.isSome → (s.task t).memoryHandler.isSome := by
          cases (s.task t).memoryHandler with
          | none => exact fun absurdity => absurdity
          | some v => exact fun _ => rfl
        generalize vmemRegionCreate kalloc (s.task t).memoryHandler (some "?-stack") 0 taskDefaultStackSize
          true true true s.kernel = region at kept memory ⊢
        obtain ⟨found, stacked⟩ := region
        cases found with
        | none => exact Or.inl ⟨stacked, kept, rfl⟩
        | some r =>
            have called := call sizeofNativeTask stacked kept
            dsimp only
            rcases nativeTaskCreate_cases kalloc (s.setKernel stacked) t code
              (wrapSub (wrap ((stacked.region r).start + (stacked.region r).size)) 8)
              (s.task t).kernel (s.task t).userdata with failed | done
            · rw [failed]
              exact Or.inl ⟨_, called, rfl⟩
            · rw [done]
              exact Or.inr ⟨t, _, _, called, rfl, created, memory rfl, rfl⟩
      · exact Or.inl ⟨s.kernel, start, if_pos created⟩

theorem taskIdMapperAdd_cases {Q : Kernel → Prop} (t : Nat) (start : Q s.kernel)
    (call : ∀ size k, Q k → Q (kalloc size k).2) :
    ∃ k mapper, Q k ∧ (taskIdMapperAdd kalloc t s).2 = { s with kernel := k, taskIdMapper := mapper } := by
  unfold taskIdMapperAdd
  dsimp only
  have entry := call sizeofIdMapperEntry s.kernel start
  by_cases failed : (kalloc sizeofIdMapperEntry s.kernel).1 = 0
  · rw [if_pos failed]
    exact ⟨_, s.taskIdMapper, entry, rfl⟩
  · rw [if_neg failed]
    refine ⟨_, _, ?_, rfl⟩
    split
    · exact entry
    · exact call _ _ entry

/-- `task_create` adds a task in the status `CREATED`, or none. -/
theorem taskCreate_cases (kalloc : Kalloc) (s : TaskSystem) {Q : Kernel → Prop} (name : String) (vmem : Option Nat)
    (start : Q s.kernel)
    (call : ∀ size k, Q k → Q (kalloc size k).2) :
    ∃ k, Q k ∧ ((taskCreate kalloc name vmem s).2 = s.setKernel k ∨
      ∃ id mapper, (taskCreate kalloc name vmem s).2 =
        { s with
          kernel := k
          tasks := s.tasks.new { Task.zero with
            taskId := id, name := name, priority := 1, memoryHandler := vmem }
          taskIdMapper := mapper }) := by
  unfold taskCreate
  dsimp only
  by_cases failed : (kalloc sizeofTask s.kernel).1 = 0
  · rw [if_pos failed]
    exact ⟨_, call _ _ start, Or.inl rfl⟩
  · rw [if_neg failed]
    obtain ⟨created, isCreated⟩ : ∃ created : TaskSystem, created = { s.setKernel (kalloc sizeofTask s.kernel).2 with
      tasks := s.tasks.new { Task.zero with name := name, priority := 1, memoryHandler := vmem } } := ⟨_, rfl⟩
    have called : Q created.kernel := by
      rw [isCreated]
      exact call _ _ start
    obtain ⟨k, mapper, kept, added⟩ := taskIdMapperAdd_cases (Q := Q) s.tasks.count called call
    rw [← isCreated]
    generalize taskIdMapperAdd kalloc s.tasks.count created = id at added ⊢
    have identified : (id.2.modifyTask s.tasks.count fun task => { task with taskId := id.1 }) =
        { s with
          kernel := k
          tasks := s.tasks.new { Task.zero with
            taskId := id.1, name := name, priority := 1, memoryHandler := vmem }
          taskIdMapper := mapper } := by
      rw [added, isCreated]
      unfold modifyTask
      dsimp only
      rw [Store.new_modify]
      rfl
    refine ⟨k, kept, Or.inr ⟨id.1, mapper, ?_⟩⟩
    split <;> exact identified

/-! ## The queue exists -/

theorem scheduledTasksAppend_listed (listed : s.scheduledTasks.isSome) :
    (scheduledTasksAppend kalloc t s).2.scheduledTasks.isSome := by
  unfold scheduledTasksAppend
  dsimp only
  split
  · exact listed
  · split
    · exact listed
    · simpa [setScheduled] using listed

theorem schedulerClearCurrentTask_listed (listed : s.scheduledTasks.isSome) :
    (schedulerClearCurrentTask kalloc s).scheduledTasks.isSome := by
  unfold schedulerClearCurrentTask
  split
  · exact listed
  · dsimp only
    split
    · exact scheduledTasksAppend_listed listed
    · exact listed

theorem schedulerLoadTask_listed (listed : s.scheduledTasks.isSome) :
    (schedulerLoadTask kalloc t s).scheduledTasks.isSome := by
  unfold schedulerLoadTask
  dsimp only
  split <;> exact schedulerClearCurrentTask_listed listed

theorem schedulerSwitchTask_listed (listed : s.scheduledTasks.isSome) :
    (schedulerSwitchTask kalloc s).2.scheduledTasks.isSome := by
  unfold schedulerSwitchTask
  cases queue : s.queue with
  | nil =>
      rw [getNextTask_of_nil queue]
      exact schedulerClearCurrentTask_listed listed
  | cons t rest =>
      rw [getNextTask_of_cons queue]
      dsimp only
      split
      · rfl
      · exact schedulerLoadTask_listed rfl

end BubackOS
