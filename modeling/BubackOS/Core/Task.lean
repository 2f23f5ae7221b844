import BubackOS.Core.Alloc
import BubackOS.Hal.NativeTask
import BubackOS.Libutils.IdMapper

/-!
# Tasks and the scheduler

`core/task/services.c`, `core/scheduler/services.c`, `core/task/syscalls.c`,
`core/syscall/services.c` and `core/hw_events.c`, with `native_task_create` and
`native_task_switch` of `x86_64/native_task.c`.  A task is a reference into a store:
`FREE` reclaims nothing.  A function that does not return ends in an `Outcome`, and the
state is the one the processor leaves the kernel with.
-/

namespace BubackOS

open Library

/-- `task_status_t`. -/
inductive TaskStatus where
  | created
  | ready
  | notReady
  deriving DecidableEq, Repr

/-- `task_t`; the record behind `native_task` belongs to this task alone. -/
structure Task where
  taskId : Nat
  name : String
  kernel : Bool
  priority : Nat
  userdata : Nat
  status : TaskStatus
  nativeTask : Option NativeTask
  memoryHandler : Option Nat

namespace Task

def zero : Task where
  taskId := 0
  name := ""
  kernel := false
  priority := 0
  userdata := 0
  status := .created
  nativeTask := none
  memoryHandler := none

end Task

/-- The memory services together with the statics of the task and scheduler modules. -/
structure TaskSystem where
  kernel : Kernel
  tasks : Store Task
  taskIdMapper : IdMapper
  currentTask : Option Nat
  scheduledTasks : LinkedList Nat

/-- The statics are zero before the modules are initialised. -/
def TaskSystem.start (k : Kernel) : TaskSystem where
  kernel := k
  tasks := { count := 0, get := fun _ => .zero }
  taskIdMapper := { next := 0, list := none }
  currentTask := none
  scheduledTasks := none

/-- How the kernel gives up the processor: `intel_switch_task` with a context, or
`native_task_sleep`. -/
inductive Outcome where
  | resume (context : NativeTask)
  | sleep
  deriving DecidableEq, Repr

namespace TaskSystem

def task (s : TaskSystem) (t : Nat) : Task := s.tasks.get t

/-- The ready queue, the next task first. -/
def queue (s : TaskSystem) : List Nat := s.scheduledTasks.items

def modifyTask (t : Nat) (change : Task → Task) (s : TaskSystem) : TaskSystem :=
  { s with tasks := s.tasks.modify t change }

def setKernel (k : Kernel) (s : TaskSystem) : TaskSystem := { s with kernel := k }

def setCurrent (task : Option Nat) (s : TaskSystem) : TaskSystem := { s with currentTask := task }

def setScheduled (list : LinkedList Nat) (s : TaskSystem) : TaskSystem := { s with scheduledTasks := list }

end TaskSystem

/-- `sizeof(task_t)`. -/
def sizeofTask : Nat := 56

/-- `sizeof(native_task_t)`. -/
def sizeofNativeTask : Nat := 168

/-- `TASK_DEFAULT_STACK_SIZE`. -/
def taskDefaultStackSize : Nat := systemPageSize * 10

/-! ## The scheduler -/

/-- `scheduler_initialise`. -/
def schedulerInitialise (kalloc : Kalloc) (s : TaskSystem) : Bool × TaskSystem :=
  let list := linkedlistCreate kalloc s.kernel
  (list.1.isSome, (s.setKernel list.2).setScheduled list.1)

/-- `linkedlist_append` on `scheduled_tasks`. -/
def scheduledTasksAppend (kalloc : Kalloc) (t : Nat) (s : TaskSystem) : Bool × TaskSystem :=
  if s.scheduledTasks.isNone then (false, s)
  else
    let node := kalloc sizeofLinkedlistNode s.kernel
    if node.1 = 0 then (false, s.setKernel node.2)
    else (true, (s.setKernel node.2).setScheduled (s.scheduledTasks.map (· ++ [t])))

/-- `scheduler_clear_current_task`; the result of the append is ignored. -/
def schedulerClearCurrentTask (kalloc : Kalloc) (s : TaskSystem) : TaskSystem :=
  match s.currentTask with
  | none => s
  | some t =>
      let listed := if (s.task t).status = .ready then (scheduledTasksAppend kalloc t s).2 else s
      listed.setCurrent none

/-- The first lines of `scheduler_task_not_ready`: the task is marked and leaves the queue. -/
def TaskSystem.stop (t : Nat) (s : TaskSystem) : TaskSystem :=
  let marked := s.modifyTask t fun task => { task with status := .notReady }
  marked.setScheduled (marked.scheduledTasks.map (·.erase t))

/-- `scheduler_task_not_ready`. -/
def schedulerTaskNotReady (kalloc : Kalloc) (task : Option Nat) (s : TaskSystem) : Bool × TaskSystem :=
  match task with
  | none => (false, s)
  | some t =>
      let stopped := s.stop t
      (true, if stopped.currentTask = some t then schedulerClearCurrentTask kalloc stopped else stopped)

/-- `scheduler_task_ready`; the result of the append is ignored. -/
def schedulerTaskReady (kalloc : Kalloc) (task : Option Nat) (s : TaskSystem) : Bool × TaskSystem :=
  match task with
  | none => (false, s)
  | some t =>
      let marked := s.modifyTask t fun task => { task with status := .ready }
      (true, (scheduledTasksAppend kalloc t marked).2)

/-- `get_next_task`: `linkedlist_remove` of the first element. -/
def getNextTask (s : TaskSystem) : Option Nat × TaskSystem :=
  match s.queue with
  | [] => (none, s)
  | t :: rest => (some t, s.setScheduled (some rest))

/-- `native_task_switch`: the task has a context unless its `native_task` is `NULL`. -/
def nativeTaskSwitch (task : Option Nat) (s : TaskSystem) : Outcome :=
  match task with
  | some t => .resume ((s.task t).nativeTask.getD .zero)
  | none => .sleep

/-- The part of `scheduler_switch_task` for a task that is not the current one. -/
def schedulerLoadTask (kalloc : Kalloc) (t : Nat) (s : TaskSystem) : TaskSystem :=
  let cleared := schedulerClearCurrentTask kalloc s
  match (cleared.task t).memoryHandler with
  | some v => cleared.setKernel (nativeVmemSwitch v cleared.kernel)
  | none => cleared

/-- `scheduler_switch_task`. -/
def schedulerSwitchTask (kalloc : Kalloc) (s : TaskSystem) : Outcome × TaskSystem :=
  let next := getNextTask s
  match next.1 with
  | some t =>
      let loaded := if next.2.currentTask = some t then next.2 else schedulerLoadTask kalloc t next.2
      let running := loaded.setCurrent (some t)
      (nativeTaskSwitch (some t) running, running)
  | none => (.sleep, schedulerClearCurrentTask kalloc next.2)

/-! ## The task services -/

/-- `task_service_initialize`: `id_mapper_create` on a static mapper. -/
def taskServiceInitialize (kalloc : Kalloc) (s : TaskSystem) : TaskSystem :=
  let list := linkedlistCreate kalloc s.kernel
  { s with kernel := list.2, taskIdMapper := { next := 1, list := list.1 } }

/-- `id_mapper_add` on `task_id_mapper`; a pointer to a task is its reference plus one, so that it
is not `NULL`. -/
def taskIdMapperAdd (kalloc : Kalloc) (t : Nat) (s : TaskSystem) : Nat × TaskSystem :=
  let entry := kalloc sizeofIdMapperEntry s.kernel
  if entry.1 = 0 then (0, s.setKernel entry.2)
  else
    let node :=
      if s.taskIdMapper.list.isNone then (0, entry.2) else kalloc sizeofLinkedlistNode entry.2
    let added := s.taskIdMapper.add true (node.1 ≠ 0) (t + 1)
    (added.1, { s with kernel := node.2, taskIdMapper := added.2 })

/-- `task_create`.  The object stays where it is when it gets no id. -/
def taskCreate (kalloc : Kalloc) (name : String) (vmem : Option Nat) (s : TaskSystem) : Option Nat × TaskSystem :=
  let object := kalloc sizeofTask s.kernel
  if object.1 = 0 then (none, s.setKernel object.2)
  else
    let t := s.tasks.count
    let created := { s.setKernel object.2 with
      tasks := s.tasks.new { Task.zero with name := name, priority := 1, memoryHandler := vmem } }
    let id := taskIdMapperAdd kalloc t created
    let identified := id.2.modifyTask t fun task => { task with taskId := id.1 }
    if id.1 = 0 then (none, identified) else (some t, identified)

/-- `task_set_kernel_mode`. -/
def taskSetKernelMode (task : Option Nat) (s : TaskSystem) : Bool × TaskSystem :=
  match task with
  | none => (false, s)
  | some t =>
      if (s.task t).status ≠ .created then (false, s)
      else (true, s.modifyTask t fun task => { task with kernel := true })

/-- `native_task_create`. -/
def nativeTaskCreate (kalloc : Kalloc) (t code stack : Nat) (permissionMode : Bool) (userdata : Nat)
    (s : TaskSystem) : Bool × TaskSystem :=
  let ntask := kalloc sizeofNativeTask s.kernel
  if ntask.1 = 0 then (false, s.setKernel ntask.2)
  else
    let context := NativeTask.initial code stack permissionMode userdata
    (true, (s.setKernel ntask.2).modifyTask t fun task => { task with nativeTask := some context })

/-- `task_run`. -/
def taskRun (kalloc : Kalloc) (task : Option Nat) (code : Nat) (s : TaskSystem) : Bool × TaskSystem :=
  match task with
  | none => (false, s)
  | some t =>
      if (s.task t).status ≠ .created then (false, s)
      else
        let region := vmemRegionCreate kalloc (s.task t).memoryHandler (some "?-stack") 0
          taskDefaultStackSize true true true s.kernel
        let stacked := s.setKernel region.2
        match region.1 with
        | none => (false, stacked)
        | some r =>
            let stack := wrapSub (wrap ((region.2.region r).start + (region.2.region r).size)) 8
            let native := nativeTaskCreate kalloc t code stack (s.task t).kernel (s.task t).userdata stacked
            if native.1 then (true, (schedulerTaskReady kalloc (some t) native.2).2) else (false, native.2)

/-- `task_release_resources`. -/
def taskReleaseResources (kalloc : Kalloc) (t : Nat) (s : TaskSystem) : TaskSystem :=
  let released := (schedulerTaskNotReady kalloc (some t) s).2
  { released with taskIdMapper := (released.taskIdMapper.del (released.task t).taskId).2 }

/-- `task_destroy`. -/
def taskDestroy (kalloc : Kalloc) (task : Option Nat) (s : TaskSystem) : Bool × TaskSystem :=
  match task with
  | none => (false, s)
  | some t => (true, taskReleaseResources kalloc t s)

/-! ## System calls and hardware events -/

/-- `SYSCALL_MAX_NUMBER`. -/
def syscallMaxNumber : Nat := 255

/-- The handlers that `syscall_registering` installs. -/
inductive Syscall where
  | taskExit
  | logging
  deriving DecidableEq, Repr

/-- `syscall_vector`: `SYSCALL_EXIT` is `1`, `SYSCALL_LOGGING` is `2`. -/
def syscallVector : Nat → Option Syscall
  | 1 => some .taskExit
  | 2 => some .logging
  | _ => none

/-- `syscall_handler_task_exit`, which does not return. -/
def syscallHandlerTaskExit (kalloc : Kalloc) (s : TaskSystem) : Outcome × TaskSystem :=
  schedulerSwitchTask kalloc (taskDestroy kalloc s.currentTask s).2

/-- How a system call ends: with a result, or in another task. -/
inductive SyscallEnd where
  | result (value : Nat)
  | switched (outcome : Outcome)
  deriving DecidableEq, Repr

/-- `handle_syscall`; `-1` is the word `2 ^ 64 - 1`, and no handler uses the arguments for
anything but the log. -/
def handleSyscall (kalloc : Kalloc) (syscallNumber : Nat) (s : TaskSystem) : SyscallEnd × TaskSystem :=
  if syscallNumber = 0 ∨ syscallNumber ≥ syscallMaxNumber then (.result (2 ^ 64 - 1), s)
  else
    match syscallVector syscallNumber with
    | none => (.result (2 ^ 64 - 1), s)
    | some .logging => (.result 0, s)
    | some .taskExit =>
        let switched := syscallHandlerTaskExit kalloc s
        (.switched switched.1, switched.2)

/-- `handle_protection_fault`, `handle_page_fault` and `handle_invalid_operation` differ in what
they log. -/
def handleFault (kalloc : Kalloc) (s : TaskSystem) : Outcome × TaskSystem :=
  match s.currentTask with
  | some t => schedulerSwitchTask kalloc (taskDestroy kalloc (some t) s).2
  | none => schedulerSwitchTask kalloc s

def handleProtectionFault (kalloc : Kalloc) (s : TaskSystem) : Outcome × TaskSystem := handleFault kalloc s

def handlePageFault (kalloc : Kalloc) (s : TaskSystem) : Outcome × TaskSystem := handleFault kalloc s

def handleInvalidOperation (kalloc : Kalloc) (s : TaskSystem) : Outcome × TaskSystem := handleFault kalloc s

end BubackOS
