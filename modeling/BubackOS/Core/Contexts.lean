import BubackOS.Core.Roots
import BubackOS.Core.TaskRuns
import BubackOS.Hal.Interrupts

/-!
# Whose context is resumed

Interrupts save the interrupted context into the current task, use it where it is or drop it
with the task.  A ledger notes, beside the kernel's own data, with which context each task
last entered the kernel; whatever the order of the events, a task goes on with the context of
the ledger, in its own address space.
-/

namespace BubackOS

open Library TaskSystem

/-! ## Events -/

/-- What the kernel is entered or called for.  `boot` is the switch at the end of the boot. -/
inductive KernelEvent where
  | interrupt (number : Nat) (frame : NativeTask)
  | syscall (context : NativeTask)
  | boot
  | create (name : String) (vmem : Option Nat)
  | setKernelMode (task : Option Nat)
  | run (task : Option Nat) (code : Nat)
  | destroy (task : Option Nat)

/-- How the processor leaves the kernel, unless the service returns to its caller, and the system
after the event. -/
def KernelEvent.handle (kalloc : Kalloc) (s : TaskSystem) : KernelEvent → Option Outcome × TaskSystem
  | interrupt number frame => ((interruptHandler kalloc frame number s).map some id)
  | syscall context => ((syscallJumper kalloc (syscallEntry context) s).map some id)
  | boot => ((schedulerSwitchTask kalloc s).map some id)
  | create name vmem => (none, (taskCreate kalloc name vmem s).2)
  | setKernelMode task => (none, (taskSetKernelMode task s).2)
  | run task code => (none, (taskRun kalloc task code s).2)
  | destroy task => (none, (taskDestroy kalloc task s).2)

/-- The context a task last entered the kernel with, or the one it was created with; the result
of the system call it entered for; the selectors of its creation; and the selectors of the context that was resumed
last. -/
structure Ledger where
  entered : Nat → NativeTask
  result : Nat → Option Nat
  selectors : Nat → Nat × Nat
  resumed : Nat × Nat

namespace Ledger

variable {l : Ledger} {t u : Nat}

/-- The context a task is to go on with. -/
def context (l : Ledger) (t : Nat) : NativeTask :=
  { l.entered t with
    rax := (l.result t).getD (l.entered t).rax
    cs := (l.selectors t).1
    ss := (l.selectors t).2 }

def enter (t : Nat) (context : NativeTask) (result : Option Nat) (l : Ledger) : Ledger :=
  { l with entered := Function.update l.entered t context, result := Function.update l.result t result }

def build (t : Nat) (context : NativeTask) : Ledger → Ledger
  | l => { l.enter t context none with selectors := Function.update l.selectors t (context.cs, context.ss) }

theorem enter_context_self (context : NativeTask) (result : Option Nat) : (l.enter t context result).context t =
    { context with
      rax := result.getD context.rax
      cs := (l.selectors t).1
      ss := (l.selectors t).2 } := by
  simp [Ledger.context, enter]

theorem enter_context_of_ne {context : NativeTask} {result : Option Nat} (other : u ≠ t) :
    (l.enter t context result).context u = l.context u := by
  simp [Ledger.context, enter, other]

theorem build_context_self (context : NativeTask) : (l.build t context).context t = context := by
  simp [Ledger.context, enter, build]

theorem build_context_of_ne {context : NativeTask} (other : u ≠ t) :
    (l.build t context).context u = l.context u := by
  simp [Ledger.context, enter, build, other]

end Ledger

/-- The result of a system call that returns. -/
def syscallAnswer (kalloc : Kalloc) (number : Nat) (s : TaskSystem) : Option Nat :=
  match (handleSyscall kalloc number s).1 with
  | .result value => some value
  | .switched _ => none

/-- What the ledger takes from an event. -/
def KernelEvent.enter (kalloc : Kalloc) (s : TaskSystem) (l : Ledger) : KernelEvent → Ledger
  | interrupt number frame =>
      match s.currentTask with
      | some t => l.enter t frame (if number = intSystemCall then syscallAnswer kalloc frame.rdi s else none)
      | none => l
  | syscall context =>
      match s.currentTask with
      | some t => l.enter t (syscallEntry context) (syscallAnswer kalloc context.rdi s)
      | none => l
  | run (some t) code =>
      let started := taskRun kalloc (some t) code s
      if started.1 then l.build t ((started.2.task t).nativeTask.getD .zero) else l
  | _ => l

/-- The ledger after an event, with what the processor was resumed with. -/
def KernelEvent.note (kalloc : Kalloc) (s : TaskSystem) (l : Ledger) (event : KernelEvent) : Ledger :=
  { event.enter kalloc s l with
    resumed :=
      match (event.handle kalloc s).1 with
      | some (.resume context) => (context.cs, context.ss)
      | _ => l.resumed }

/-- Pointers are `NULL` or valid, the switch at the end of the boot finds no current task, and while a task runs the
processor pushes the selectors it was resumed with. -/
def KernelEvent.Genuine (l : Ledger) (s : TaskSystem) : KernelEvent → Prop
  | interrupt _ frame => s.currentTask.isSome → (frame.cs, frame.ss) = l.resumed
  | syscall _ => True
  | boot => s.currentTask = none
  | create _ vmem => ∀ v ∈ vmem, v < s.kernel.core.vmems.count
  | setKernelMode task | run task _ | destroy task => ∀ t ∈ task, t < s.tasks.count

/-- The systems that events reach from the boot, with their ledgers. -/
inductive KernelRun (kalloc : Kalloc) : Ledger → TaskSystem → Prop where
  | boot (k : Kernel) (l : Ledger) :
      KernelRun kalloc l (taskServiceInitialize kalloc (schedulerInitialise kalloc (TaskSystem.start k)).2)
  | step {l : Ledger} {s : TaskSystem} (reached : KernelRun kalloc l s) (event : KernelEvent)
      (genuine : event.Genuine l s) : KernelRun kalloc (event.note kalloc s l) (event.handle kalloc s).2

variable {kalloc : Kalloc} {s : TaskSystem} {l l' : Ledger} {t u v : Nat}

/-! ## Between events and at a switch -/

/-- The handlers of tasks are address spaces, and scheduled tasks have one. -/
structure Homed (s : TaskSystem) : Prop where
  known : ∀ t v, (s.task t).memoryHandler = some v → v < s.kernel.core.vmems.count
  placed : ∀ t, s.dispatcher.Placed t → (s.task t).memoryHandler.isSome

/-- Every scheduled task is saved with the context it is to go on with. -/
structure Poised (l : Ledger) (s : TaskSystem) : Prop where
  scheduled : Scheduled s
  homed : Homed s
  saved : ∀ t, s.dispatcher.Placed t → (s.task t).nativeTask = some (l.context t)

/-- Between events the current task may run ahead of its saved context, but not of its selectors,
and its page table is loaded. -/
structure InOrder (l : Ledger) (s : TaskSystem) : Prop where
  scheduled : Scheduled s
  homed : Homed s
  saved : ∀ t ∈ s.queue, (s.task t).nativeTask = some (l.context t)
  running : ∀ t, s.currentTask = some t →
    ∃ saved, (s.task t).nativeTask = some saved ∧ (saved.cs, saved.ss) = l.selectors t
  active : ∀ t v, s.currentTask = some t → (s.task t).memoryHandler = some v →
    s.kernel.core.cr3 = (s.kernel.native v).entries

/-- While a task runs, the selectors of its creation are loaded. -/
def Loaded (l : Ledger) (s : TaskSystem) : Prop := ∀ t, s.currentTask = some t → l.resumed = l.selectors t

/-! ## The scheduler's memory -/

section Switch

variable (calls : ∀ size k, SameRoots k (kalloc size k).2)

include calls

theorem scheduledTasksAppend_sameRoots (t : Nat) (s : TaskSystem) :
    SameRoots s.kernel (scheduledTasksAppend kalloc t s).2.kernel := by
  have called := calls sizeofLinkedlistNode s.kernel
  unfold scheduledTasksAppend
  dsimp only
  split
  · exact SameRoots.refl _
  · split <;> exact called

theorem schedulerTaskReady_sameRoots (t : Nat) (s : TaskSystem) :
    SameRoots s.kernel (schedulerTaskReady kalloc (some t) s).2.kernel :=
  scheduledTasksAppend_sameRoots calls t (s.modifyTask t fun task => { task with status := .ready })

theorem schedulerClearCurrentTask_sameRoots (s : TaskSystem) :
    SameRoots s.kernel (schedulerClearCurrentTask kalloc s).kernel := by
  unfold schedulerClearCurrentTask
  split
  · exact SameRoots.refl _
  · dsimp only
    split
    · exact scheduledTasksAppend_sameRoots calls _ s
    · exact SameRoots.refl _

theorem schedulerLoadTask_count (t : Nat) (s : TaskSystem) :
    s.kernel.core.vmems.count ≤ (schedulerLoadTask kalloc t s).kernel.core.vmems.count := by
  have cleared := (schedulerClearCurrentTask_sameRoots calls s).count
  unfold schedulerLoadTask
  dsimp only
  split
  · have switched : ∀ v k, (nativeVmemSwitch v k).core.vmems = k.core.vmems := fun v k => by
      unfold nativeVmemSwitch
      split <;> rfl
    refine cleared.trans (Nat.le_of_eq ?_)
    rw [setKernel, switched]
  · exact cleared

theorem schedulerSwitchTask_count (s : TaskSystem) :
    s.kernel.core.vmems.count ≤ (schedulerSwitchTask kalloc s).2.kernel.core.vmems.count := by
  unfold schedulerSwitchTask
  cases queue : s.queue with
  | nil =>
      rw [getNextTask_of_nil queue]
      exact (schedulerClearCurrentTask_sameRoots calls s).count
  | cons t rest =>
      rw [getNextTask_of_cons queue]
      dsimp only
      split
      · exact Nat.le_refl _
      · exact schedulerLoadTask_count calls t (s.setScheduled (some rest))

end Switch

/-- The table of the task is loaded. -/
theorem schedulerLoadTask_active (handler : (s.task t).memoryHandler = some v) :
    (schedulerLoadTask kalloc t s).kernel.core.cr3 = ((schedulerLoadTask kalloc t s).kernel.native v).entries := by
  have loaded : ∀ k, (nativeVmemSwitch v k).core.cr3 = ((nativeVmemSwitch v k).native v).entries := fun k => by
    unfold nativeVmemSwitch
    split
    · assumption
    · rfl
  have same : ((schedulerClearCurrentTask kalloc s).task t).memoryHandler = some v := by
    unfold task
    rw [schedulerClearCurrentTask_tasks]
    exact handler
  unfold schedulerLoadTask
  dsimp only
  rw [same]
  exact loaded _

/-- What runs after a switch: a task that was queued, with its saved context and its table. -/
theorem schedulerSwitchTask_running (exclusive : s.dispatcher.Exclusive)
    (running : (schedulerSwitchTask kalloc s).2.currentTask = some t) :
    (schedulerSwitchTask kalloc s).1 = .resume ((s.task t).nativeTask.getD .zero) ∧
    ∀ v, (s.task t).memoryHandler = some v → (schedulerSwitchTask kalloc s).2.kernel.core.cr3 =
      ((schedulerSwitchTask kalloc s).2.kernel.native v).entries := by
  unfold schedulerSwitchTask at running ⊢
  cases queue : s.queue with
  | nil =>
      rw [getNextTask_of_nil queue] at running
      have idle : (schedulerClearCurrentTask kalloc s).currentTask = none := schedulerClearCurrentTask_currentTask
      dsimp only at running
      rw [idle] at running
      exact absurd running (by simp)
  | cons next rest =>
      have other : s.currentTask ≠ some next :=
        exclusive.apart next (by rw [show s.dispatcher.queue = next :: rest from queue]; exact List.mem_cons_self)
      have current : (s.setScheduled (some rest)).currentTask = s.currentTask := rfl
      rw [getNextTask_of_cons queue] at running ⊢
      dsimp only at running ⊢
      rw [current, if_neg other] at running ⊢
      obtain rfl : next = t := Option.some.inj running
      refine ⟨?_, fun v handler => schedulerLoadTask_active handler⟩
      unfold nativeTaskSwitch
      dsimp only [setCurrent_task]
      unfold task
      rw [schedulerLoadTask_tasks]
      rfl

/-! ## Switching -/

theorem task_of_tasks {s' : TaskSystem} (tasks : s'.tasks = s.tasks) (t : Nat) : s'.task t = s.task t := by
  unfold task
  rw [tasks]

/-- The scheduler picks a task that is saved, and loads its page table. -/
theorem Poised.switch (calls : ∀ size k, SameRoots k (kalloc size k).2) (poised : Poised l s) :
    InOrder l (schedulerSwitchTask kalloc s).2 := by
  have same : ∀ t, (schedulerSwitchTask kalloc s).2.task t = s.task t := task_of_tasks schedulerSwitchTask_tasks
  have placed : ∀ t, (schedulerSwitchTask kalloc s).2.dispatcher.Placed t → s.dispatcher.Placed t := by
    intro t after
    rw [schedulerSwitchTask_dispatcher] at after
    exact poised.scheduled.exclusive.switch_placed after
  constructor
  · exact poised.scheduled.switch
  · refine ⟨fun t v handler => ?_, fun t after => ?_⟩
    · rw [same] at handler
      exact (poised.homed.known t v handler).trans_le (schedulerSwitchTask_count calls s)
    · rw [same]
      exact poised.homed.placed t (placed t after)
  · intro t queued
    rw [same]
    exact poised.saved t (placed t (Or.inr queued))
  · intro t running
    refine ⟨l.context t, ?_, rfl⟩
    rw [same]
    exact poised.saved t (placed t (Or.inl running))
  · intro t v running handler
    rw [same] at handler
    exact (schedulerSwitchTask_running poised.scheduled.exclusive running).2 v handler

/-- The resumed context is the one the task is to go on with. -/
theorem Poised.resumes (poised : Poised l s) {context : NativeTask}
    (outcome : (schedulerSwitchTask kalloc s).1 = .resume context)
    (running : (schedulerSwitchTask kalloc s).2.currentTask = some t) : context = l.context t := by
  have resumed := (schedulerSwitchTask_running poised.scheduled.exclusive running).1
  have before : s.dispatcher.Placed t := by
    have after : (schedulerSwitchTask kalloc s).2.dispatcher.Placed t := Or.inl running
    rw [schedulerSwitchTask_dispatcher] at after
    exact poised.scheduled.exclusive.switch_placed after
  rw [resumed, poised.saved t before] at outcome
  exact (Outcome.resume.inj outcome).symm

/-! ## Entering -/

theorem InOrder.poised_of_idle (order : InOrder l s) (idle : s.currentTask = none) : Poised l s := by
  refine ⟨order.scheduled, order.homed, ?_⟩
  rintro t (running | queued)
  · exact absurd (running.symm.trans idle) (by simp)
  · exact order.saved t queued

/-- Another ledger for the tasks that wait. -/
theorem InOrder.saved_of_agree (order : InOrder l s)
    (agree : ∀ t, s.currentTask ≠ some t → l'.context t = l.context t) :
    ∀ t ∈ s.queue, (s.task t).nativeTask = some (l'.context t) := by
  intro t queued
  rw [agree t (order.scheduled.exclusive.apart t queued)]
  exact order.saved t queued

/-! ## Destroying -/

theorem taskDestroy_task (t u : Nat) : (taskDestroy kalloc (some t) s).2.task u =
    if u = t then { s.task u with status := .notReady } else s.task u := by
  unfold task
  rw [taskDestroy_tasks]
  exact Store.modify_get _ _ _ _

theorem taskDestroy_nativeTask (t u : Nat) :
    ((taskDestroy kalloc (some t) s).2.task u).nativeTask = (s.task u).nativeTask := by
  rw [taskDestroy_task]
  split <;> rfl

theorem taskDestroy_memoryHandler (t u : Nat) :
    ((taskDestroy kalloc (some t) s).2.task u).memoryHandler = (s.task u).memoryHandler := by
  rw [taskDestroy_task]
  split <;> rfl

/-- The queue gets no node: the current task is cleared after it was marked. -/
theorem taskDestroy_kernel (t : Nat) (s : TaskSystem) : (taskDestroy kalloc (some t) s).2.kernel = s.kernel := by
  have stopped : ((s.stop t).task t).status ≠ .ready := by simp [stop]
  have released : (schedulerTaskNotReady kalloc (some t) s).2.kernel = s.kernel := by
    unfold schedulerTaskNotReady
    dsimp only
    split
    · rename_i current
      unfold schedulerClearCurrentTask
      rw [current]
      dsimp only
      rw [if_neg stopped]
      rfl
    · rfl
  exact released

theorem taskDestroy_placed (exclusive : s.dispatcher.Exclusive) :
    (taskDestroy kalloc (some t) s).2.dispatcher.Placed u ↔ s.dispatcher.Placed u ∧ u ≠ t := by
  rw [taskDestroy_dispatcher]
  exact exclusive.withdraw_placed

theorem Homed.destroy (homed : Homed s) (exclusive : s.dispatcher.Exclusive) :
    Homed (taskDestroy kalloc (some t) s).2 := by
  refine ⟨fun u v handler => ?_, fun u placed => ?_⟩
  · rw [taskDestroy_memoryHandler] at handler
    rw [taskDestroy_kernel]
    exact homed.known u v handler
  · rw [taskDestroy_memoryHandler]
    exact homed.placed u ((taskDestroy_placed exclusive).mp placed).1

/-- The current task is destroyed; the others are saved. -/
theorem InOrder.destroyCurrent (order : InOrder l s)
    (agree : ∀ t, s.currentTask ≠ some t → l'.context t = l.context t) :
    Poised l' (taskDestroy kalloc s.currentTask s).2 := by
  have saved := order.saved_of_agree agree
  cases current : s.currentTask with
  | none =>
      refine ⟨order.scheduled, order.homed, ?_⟩
      rintro t (running | queued)
      · exact absurd (running.symm.trans current) (by simp)
      · exact saved t queued
  | some c =>
      refine ⟨order.scheduled.destroy (order.scheduled.inside (Or.inl current)),
        order.homed.destroy order.scheduled.exclusive, fun t placed => ?_⟩
      obtain ⟨running | queued, other⟩ := (taskDestroy_placed order.scheduled.exclusive).mp placed
      · exact absurd (Option.some.inj (running.symm.trans current)) other
      · rw [taskDestroy_nativeTask]
        exact saved t queued

/-- `task_destroy` of any task. -/
theorem InOrder.destroy (order : InOrder l s) (inside : t < s.tasks.count) :
    InOrder l (taskDestroy kalloc (some t) s).2 := by
  have placed : ∀ u, (taskDestroy kalloc (some t) s).2.dispatcher.Placed u → s.dispatcher.Placed u := fun u after =>
    ((taskDestroy_placed order.scheduled.exclusive).mp after).1
  have running : ∀ u, (taskDestroy kalloc (some t) s).2.currentTask = some u → s.currentTask = some u := by
    intro u after
    have current : (taskDestroy kalloc (some t) s).2.dispatcher.current = some u := after
    rw [taskDestroy_dispatcher] at current
    exact (Dispatcher.withdraw_running.mp current).1
  have queued : ∀ u ∈ (taskDestroy kalloc (some t) s).2.queue, u ∈ s.queue := by
    intro u after
    have waits : u ∈ (taskDestroy kalloc (some t) s).2.dispatcher.queue := after
    rw [taskDestroy_dispatcher] at waits
    exact List.mem_of_mem_erase waits
  constructor
  · exact order.scheduled.destroy inside
  · exact order.homed.destroy order.scheduled.exclusive
  · intro u after
    rw [taskDestroy_nativeTask]
    exact order.saved u (queued u after)
  · intro u after
    rw [taskDestroy_nativeTask]
    exact order.running u (running u after)
  · intro u v after handler
    rw [taskDestroy_memoryHandler] at handler
    rw [taskDestroy_kernel]
    exact order.active u v (running u after) handler

/-! ## Changes that schedule nothing -/

/-- The same tasks are scheduled, in the same address spaces. -/
structure Carries (s s' : TaskSystem) : Prop where
  schedule : SameSchedule s s'
  count : s.tasks.count ≤ s'.tasks.count
  roots : SameRoots s.kernel s'.kernel
  handler : ∀ t, s.dispatcher.Placed t → (s'.task t).memoryHandler = (s.task t).memoryHandler
  known : ∀ t v, (s'.task t).memoryHandler = some v → v < s'.kernel.core.vmems.count

theorem Carries.homed {s' : TaskSystem} (carries : Carries s s') (homed : Homed s) : Homed s' := by
  refine ⟨carries.known, fun t placed => ?_⟩
  rw [carries.schedule.dispatcher] at placed
  rw [carries.handler t placed]
  exact homed.placed t placed

/-- What is saved, and with which selectors, is to be shown of the new state. -/
theorem InOrder.carry {s' : TaskSystem} (order : InOrder l s) (carries : Carries s s')
    (saved : ∀ t ∈ s.queue, (s'.task t).nativeTask = some (l'.context t))
    (running : ∀ t, s.currentTask = some t →
      ∃ saved, (s'.task t).nativeTask = some saved ∧ (saved.cs, saved.ss) = l'.selectors t) : InOrder l' s' := by
  have current : s'.currentTask = s.currentTask := carries.schedule.currentTask
  have queue : s'.queue = s.queue := congrArg LinkedList.items carries.schedule.scheduledTasks
  constructor
  · exact order.scheduled.of_same carries.schedule carries.count
  · exact carries.homed order.homed
  · rw [queue]
    exact saved
  · rw [current]
    exact running
  · intro t v isCurrent handler
    rw [current] at isCurrent
    rw [carries.handler t (Or.inl isCurrent)] at handler
    rw [carries.roots.cr3, carries.roots.root v (order.homed.known t v handler)]
    exact order.active t v isCurrent handler

/-- No context is touched. -/
theorem InOrder.carry_same {s' : TaskSystem} (order : InOrder l s) (carries : Carries s s')
    (same : ∀ t, s.dispatcher.Placed t → (s'.task t).nativeTask = (s.task t).nativeTask) : InOrder l s' := by
  refine order.carry carries (fun t queued => ?_) fun t running => ?_
  · rw [same t (Or.inr queued)]
    exact order.saved t queued
  · rw [same t (Or.inl running)]
    exact order.running t running

/-! ## Saving -/

theorem store_task (t u : Nat) (context : NativeTask) (s : TaskSystem) :
    (ContextPointer.store (.saved t) context s).task u =
      if u = t then { s.task u with nativeTask := some context } else s.task u := rfl

theorem store_carries (homed : Homed s) (pointer : ContextPointer) (context : NativeTask) :
    Carries s (pointer.store context s) := by
  cases pointer with
  | stack => exact ⟨⟨fun t => rfl, rfl, rfl⟩, Nat.le_refl _, SameRoots.refl _, fun t _ => rfl, homed.known⟩
  | saved t =>
      have handler : ∀ u, ((ContextPointer.store (.saved t) context s).task u).memoryHandler =
          (s.task u).memoryHandler := fun u => by
        rw [store_task]
        split <;> rfl
      refine ⟨⟨fun u => ?_, rfl, rfl⟩, Nat.le_refl _, SameRoots.refl _, fun u _ => handler u, fun u v isHandler => ?_⟩
      · rw [store_task]
        split <;> rfl
      · rw [handler] at isHandler
        exact homed.known u v isHandler

/-- The record `hal_update_current_state` writes: the frame with the task's selectors. -/
theorem halUpdateCurrentState_of_current (order : InOrder l s) (current : s.currentTask = some t) (frame : NativeTask) :
    halUpdateCurrentState frame s =
      (.saved t, { frame with cs := (l.selectors t).1, ss := (l.selectors t).2 },
        ContextPointer.store (.saved t) { frame with cs := (l.selectors t).1, ss := (l.selectors t).2 } s) := by
  obtain ⟨saved, isSaved, selectors⟩ := order.running t current
  unfold halUpdateCurrentState
  rw [current]
  dsimp only
  rw [isSaved, ← selectors]
  rfl

/-- The current task is saved with another context of its selectors. -/
theorem InOrder.store (order : InOrder l s) (current : s.currentTask = some t) (context : NativeTask)
    (selectors : (context.cs, context.ss) = l.selectors t) :
    InOrder l (ContextPointer.store (.saved t) context s) := by
  refine order.carry (store_carries order.homed (.saved t) context) (fun u queued => ?_) fun u running => ?_
  · have other : u ≠ t := fun same => order.scheduled.exclusive.apart u queued (by rw [same]; exact current)
    rw [store_task, if_neg other]
    exact order.saved u queued
  · obtain rfl : t = u := Option.some.inj (current.symm.trans running)
    rw [store_task, if_pos rfl]
    exact ⟨context, rfl, selectors⟩

/-- Another ledger that differs in the current task alone. -/
theorem InOrder.of_agree (order : InOrder l s)
    (agree : ∀ t, s.currentTask ≠ some t → l'.context t = l.context t) (selectors : l'.selectors = l.selectors) :
    InOrder l' s where
  scheduled := order.scheduled
  homed := order.homed
  saved := order.saved_of_agree agree
  running := by
    rw [selectors]
    exact order.running
  active := order.active

/-- The current task is saved with the context it entered the kernel with. -/
theorem InOrder.save (order : InOrder l s) (current : s.currentTask = some t) (context : NativeTask)
    (agree : ∀ u, u ≠ t → l'.context u = l.context u) (own : l'.context t = context) :
    Poised l' (ContextPointer.store (.saved t) context s) := by
  have carries := store_carries order.homed (.saved t) context
  refine ⟨order.scheduled.of_same carries.schedule carries.count, carries.homed order.homed, fun u placed => ?_⟩
  rw [carries.schedule.dispatcher] at placed
  rw [store_task]
  by_cases same : u = t
  · rw [if_pos same, same, own]
  · rw [if_neg same, agree u same]
    rcases placed with running | queued
    · exact absurd (Option.some.inj (running.symm.trans current)) same
    · exact order.saved u queued

/-! ## System calls -/

/-- Only `exit` does not return, and the others leave the system alone. -/
theorem handleSyscall_eq (kalloc : Kalloc) (number : Nat) (s : TaskSystem) : handleSyscall kalloc number s =
    if number = 1 then (.switched (syscallHandlerTaskExit kalloc s).1, (syscallHandlerTaskExit kalloc s).2)
    else (.result (if number = 2 then 0 else 2 ^ 64 - 1), s) := by
  by_cases exit : number = 1
  · subst exit
    rfl
  · rw [if_neg exit]
    by_cases logging : number = 2
    · subst logging
      rfl
    · have unregistered : syscallVector number = none := by
        unfold syscallVector
        split <;> simp_all
      rw [if_neg logging]
      unfold handleSyscall
      rw [unregistered]
      split <;> rfl

theorem syscallAnswer_eq (kalloc : Kalloc) (number : Nat) (s : TaskSystem) : syscallAnswer kalloc number s =
    if number = 1 then none else some (if number = 2 then 0 else 2 ^ 64 - 1) := by
  unfold syscallAnswer
  rw [handleSyscall_eq]
  by_cases exit : number = 1
  · rw [if_pos exit, if_pos exit]
  · rw [if_neg exit, if_neg exit]

/-- A system call either ends the current task, or its caller goes on with the answer. -/
theorem preSyscall_cases (kalloc : Kalloc) (pointer : ContextPointer) (context : NativeTask) (s : TaskSystem) :
    syscallAnswer kalloc context.rdi s = none ∧
      preSyscall kalloc pointer context s = schedulerSwitchTask kalloc (taskDestroy kalloc s.currentTask s).2 ∨
    ∃ value, syscallAnswer kalloc context.rdi s = some value ∧
      preSyscall kalloc pointer context s =
        (.resume { context with rax := value }, pointer.store { context with rax := value } s) := by
  unfold preSyscall
  rw [syscallAnswer_eq, handleSyscall_eq]
  by_cases exit : context.rdi = 1
  · rw [if_pos exit, if_pos exit]
    exact Or.inl ⟨rfl, rfl⟩
  · rw [if_neg exit, if_neg exit]
    exact Or.inr ⟨_, rfl, rfl⟩

/-! ## The events -/

/-- After an event the system is in order, and what was resumed is in the ledger. -/
structure Resumes (l : Ledger) (result : Outcome × TaskSystem) : Prop where
  order : InOrder l result.2
  resumes : ∀ t, result.2.currentTask = some t → ∃ context, result.1 = .resume context
  resumed : ∀ context t, result.1 = .resume context → result.2.currentTask = some t → context = l.context t

theorem Poised.resumes_switch (calls : ∀ size k, SameRoots k (kalloc size k).2) (poised : Poised l s) :
    Resumes l (schedulerSwitchTask kalloc s) :=
  ⟨poised.switch calls, fun _ running => ⟨_, (schedulerSwitchTask_running poised.scheduled.exclusive running).1⟩,
    fun _ _ outcome running => poised.resumes outcome running⟩

theorem handleFault_resumes (calls : ∀ size k, SameRoots k (kalloc size k).2) (order : InOrder l s)
    (agree : ∀ t, s.currentTask ≠ some t → l'.context t = l.context t) : Resumes l' (handleFault kalloc s) := by
  rw [handleFault_eq]
  exact (order.destroyCurrent agree).resumes_switch calls

/-- An event of the current task changes the ledger of no other. -/
theorem enter_agrees (current : s.currentTask = some t) (context : NativeTask) (result : Option Nat) :
    ∀ u, s.currentTask ≠ some u → (l.enter t context result).context u = l.context u := by
  intro u other
  refine Ledger.enter_context_of_ne fun same => other ?_
  rw [same]
  exact current

/-- Interrupts that save the context and switch. -/
theorem save_resumes (calls : ∀ size k, SameRoots k (kalloc size k).2) (order : InOrder l s)
    (current : s.currentTask = some t) (frame : NativeTask) :
    Resumes (l.enter t frame none) (schedulerSwitchTask kalloc (halUpdateCurrentState frame s).2.2) := by
  rw [halUpdateCurrentState_of_current order current]
  refine Poised.resumes_switch calls (order.save current _ (fun u other => Ledger.enter_context_of_ne other) ?_)
  rw [Ledger.enter_context_self]
  rfl

/-- A system call while nothing runs resumes what was interrupted. -/
theorem preSyscall_idle (calls : ∀ size k, SameRoots k (kalloc size k).2) (order : InOrder l s)
    (idle : s.currentTask = none) (context : NativeTask) :
    Resumes l (preSyscall kalloc .stack context s) := by
  rcases preSyscall_cases kalloc .stack context s with ⟨-, ended⟩ | ⟨value, -, answered⟩
  · rw [ended]
    exact (order.destroyCurrent fun _ _ => rfl).resumes_switch calls
  · rw [answered]
    exact ⟨order, fun _ _ => ⟨_, rfl⟩, fun _ _ _ running => absurd (running.symm.trans idle) (by simp)⟩

/-- An interrupt saves the current task and switches, destroys it, or is a system call. -/
theorem interruptHandler_cases (kalloc : Kalloc) (frame : NativeTask) (number : Nat) (s : TaskSystem) :
    number ≠ intSystemCall ∧
      interruptHandler kalloc frame number s = schedulerSwitchTask kalloc (halUpdateCurrentState frame s).2.2 ∨
    number ≠ intSystemCall ∧ interruptHandler kalloc frame number s = handleFault kalloc s ∨
    number = intSystemCall ∧ interruptHandler kalloc frame number s = preSyscall kalloc .stack frame s := by
  have timer : handleTaskSwitch kalloc frame s = schedulerSwitchTask kalloc (halUpdateCurrentState frame s).2.2 := by
    unfold handleTaskSwitch halUpdateCurrentState
    cases s.currentTask <;> rfl
  unfold interruptHandler
  split
  · rename_i isTimer
    exact Or.inl ⟨by rw [isTimer]; decide, timer⟩
  · split
    · rename_i isFault
      exact Or.inr (Or.inl ⟨by rw [isFault]; decide, rfl⟩)
    · split
      · rename_i isFault
        exact Or.inr (Or.inl ⟨by rw [isFault]; decide, rfl⟩)
      · split
        · rename_i isFault
          exact Or.inr (Or.inl ⟨by rw [isFault]; decide, rfl⟩)
        · split
          · rename_i isCall
            exact Or.inr (Or.inr ⟨isCall, rfl⟩)
          · rename_i other
            exact Or.inl ⟨other, rfl⟩

theorem halUpdateCurrentState_of_idle (idle : s.currentTask = none) (frame : NativeTask) :
    halUpdateCurrentState frame s = (.stack, frame, s) := by
  unfold halUpdateCurrentState
  rw [idle]

/-- An interrupt while nothing runs. -/
theorem interruptHandler_idle (calls : ∀ size k, SameRoots k (kalloc size k).2) (order : InOrder l s)
    (idle : s.currentTask = none) (number : Nat) (frame : NativeTask) :
    Resumes l (interruptHandler kalloc frame number s) := by
  rcases interruptHandler_cases kalloc frame number s with ⟨-, saved⟩ | ⟨-, faulted⟩ | ⟨-, called⟩
  · rw [saved, halUpdateCurrentState_of_idle idle]
    exact (order.poised_of_idle idle).resumes_switch calls
  · rw [faulted]
    exact handleFault_resumes calls order fun _ _ => rfl
  · rw [called]
    exact preSyscall_idle calls order idle frame

/-- An interrupt of the current task. -/
theorem interruptHandler_current (calls : ∀ size k, SameRoots k (kalloc size k).2) (order : InOrder l s)
    (current : s.currentTask = some t) (number : Nat) (frame : NativeTask)
    (genuine : (frame.cs, frame.ss) = l.selectors t) :
    Resumes (l.enter t frame (if number = intSystemCall then syscallAnswer kalloc frame.rdi s else none))
      (interruptHandler kalloc frame number s) := by
  rcases interruptHandler_cases kalloc frame number s with ⟨other, saved⟩ | ⟨other, faulted⟩ | ⟨isCall, called⟩
  · rw [saved, if_neg other]
    exact save_resumes calls order current frame
  · rw [faulted, if_neg other]
    exact handleFault_resumes calls order (enter_agrees current frame none)
  · rw [called, if_pos isCall]
    rcases preSyscall_cases kalloc .stack frame s with ⟨answer, ended⟩ | ⟨value, answer, answered⟩
    · rw [ended, answer]
      exact (order.destroyCurrent (enter_agrees current frame none)).resumes_switch calls
    · -- the context on the stack is resumed as it is, but for the answer
      rw [answered, answer]
      refine ⟨order.of_agree (enter_agrees current _ _) rfl, fun _ _ => ⟨_, rfl⟩, ?_⟩
      intro context u outcome running
      obtain rfl : t = u := Option.some.inj (current.symm.trans running)
      rw [Ledger.enter_context_self, ← Outcome.resume.inj outcome, ← genuine]
      rfl

/-- The syscall instruction while nothing runs. -/
theorem syscallJumper_idle (calls : ∀ size k, SameRoots k (kalloc size k).2) (order : InOrder l s)
    (idle : s.currentTask = none) (entry : NativeTask) : Resumes l (syscallJumper kalloc entry s) := by
  unfold syscallJumper
  rw [halUpdateCurrentState_of_idle idle]
  exact preSyscall_idle calls order idle _

/-- The syscall instruction of the current task. -/
theorem syscallJumper_current (calls : ∀ size k, SameRoots k (kalloc size k).2) (order : InOrder l s)
    (current : s.currentTask = some t) (context : NativeTask) :
    Resumes (l.enter t (syscallEntry context) (syscallAnswer kalloc context.rdi s))
      (syscallJumper kalloc (syscallEntry context) s) := by
  obtain ⟨updated, isUpdated⟩ : ∃ updated : NativeTask, updated =
      { syscallFrame (syscallEntry context) with cs := (l.selectors t).1, ss := (l.selectors t).2 } := ⟨_, rfl⟩
  have number : updated.rdi = context.rdi := by
    rw [isUpdated]
    rfl
  have selectors : (updated.cs, updated.ss) = l.selectors t := by
    rw [isUpdated]
  have stored := order.store current updated selectors
  have running : (ContextPointer.store (.saved t) updated s).currentTask = some t := current
  unfold syscallJumper
  rw [halUpdateCurrentState_of_current order current, ← isUpdated]
  dsimp only
  rcases preSyscall_cases kalloc (.saved t) updated (ContextPointer.store (.saved t) updated s) with
    ⟨answer, ended⟩ | ⟨value, answer, answered⟩
  · rw [ended]
    exact (stored.destroyCurrent (enter_agrees running _ _)).resumes_switch calls
  · rw [syscallAnswer_eq, number] at answer
    rw [answered, syscallAnswer_eq, answer]
    refine ⟨(stored.store running { updated with rax := value } selectors).of_agree
      (enter_agrees current _ _) rfl, fun _ _ => ⟨_, rfl⟩, ?_⟩
    intro resumed u outcome isCurrent
    obtain rfl : t = u := Option.some.inj (current.symm.trans isCurrent)
    rw [Ledger.enter_context_self, ← Outcome.resume.inj outcome, isUpdated]
    rfl

/-! ## The services -/

/-- `task_create`: the new task is not scheduled. -/
theorem InOrder.create (calls : ∀ size k, SameRoots k (kalloc size k).2) (order : InOrder l s) (name : String)
    (vmem : Option Nat) (known : ∀ v ∈ vmem, v < s.kernel.core.vmems.count) :
    InOrder l (taskCreate kalloc name vmem s).2 := by
  obtain ⟨schedule, count⟩ := order.scheduled.create_same kalloc name vmem
  obtain ⟨k, roots, failed | ⟨id, mapper, created⟩⟩ :=
    taskCreate_cases kalloc s (Q := SameRoots s.kernel) name vmem (SameRoots.refl _)
      (fun size k before => before.trans (calls size k))
  · rw [failed]
    exact order.carry_same ⟨⟨fun _ => rfl, rfl, rfl⟩, Nat.le_refl _, roots, fun _ _ => rfl,
      fun t v handler => (order.homed.known t v handler).trans_le roots.count⟩ fun _ _ => rfl
  · rw [created] at schedule count ⊢
    have old : ∀ t, t ≠ s.tasks.count → (s.tasks.new { Task.zero with
        taskId := id, name := name, priority := 1, memoryHandler := vmem }).get t = s.task t := fun t other =>
      Store.new_get_of_ne other
    have inside : ∀ t, s.dispatcher.Placed t → t ≠ s.tasks.count := fun t placed =>
      (order.scheduled.inside placed).ne
    refine order.carry_same ⟨schedule, count, roots, fun t placed => ?_, fun t v handler => ?_⟩ fun t placed => ?_
    · exact congrArg Task.memoryHandler (old t (inside t placed))
    · by_cases isNew : t = s.tasks.count
      · subst isNew
        have fresh : vmem = some v := by
          rw [task, Store.new_get_self] at handler
          exact handler
        exact (known v fresh).trans_le roots.count
      · rw [task, old t isNew] at handler
        exact (order.homed.known t v handler).trans_le roots.count
    · exact congrArg Task.nativeTask (old t (inside t placed))

theorem taskSetKernelMode_task (task : Option Nat) (s : TaskSystem) (t : Nat) :
    ((taskSetKernelMode task s).2.task t).nativeTask = (s.task t).nativeTask ∧
      ((taskSetKernelMode task s).2.task t).memoryHandler = (s.task t).memoryHandler := by
  unfold taskSetKernelMode
  cases task with
  | none => exact ⟨rfl, rfl⟩
  | some u =>
      dsimp only
      split
      · exact ⟨rfl, rfl⟩
      · by_cases same : t = u
        · rw [same, modifyTask_task_self]
          exact ⟨rfl, rfl⟩
        · rw [modifyTask_task_of_ne same]
          exact ⟨rfl, rfl⟩

theorem taskSetKernelMode_kernel (task : Option Nat) (s : TaskSystem) :
    (taskSetKernelMode task s).2.kernel = s.kernel := by
  unfold taskSetKernelMode
  cases task with
  | none => rfl
  | some u =>
      dsimp only
      split <;> rfl

theorem InOrder.setKernelMode (order : InOrder l s) (task : Option Nat) :
    InOrder l (taskSetKernelMode task s).2 := by
  obtain ⟨schedule, count⟩ := taskSetKernelMode_same task s
  refine order.carry_same ⟨schedule, count.ge, ?_, fun t _ => (taskSetKernelMode_task task s t).2,
    fun t v handler => ?_⟩ fun t _ => (taskSetKernelMode_task task s t).1
  · rw [taskSetKernelMode_kernel]
    exact SameRoots.refl _
  · rw [(taskSetKernelMode_task task s t).2] at handler
    rw [taskSetKernelMode_kernel]
    exact order.homed.known t v handler

/-- The tasks after a successful `task_run`. -/
theorem started_task (kalloc : Kalloc) (s : TaskSystem) (t : Nat) (k : Kernel) (context : NativeTask) (u : Nat) :
    (schedulerTaskReady kalloc (some t)
      ((s.setKernel k).modifyTask t fun task => { task with nativeTask := some context })).2.task u =
    if u = t then { s.task u with nativeTask := some context, status := .ready } else s.task u := by
  unfold task
  rw [started_tasks]
  rfl

/-- A created task becomes ready with the context that is noted for it. -/
theorem InOrder.start (calls : ∀ size k, SameRoots k (kalloc size k).2) (order : InOrder l s) {k : Kernel}
    (roots : SameRoots s.kernel k) (context : NativeTask) (inside : t < s.tasks.count)
    (created : (s.task t).status = .created) (memory : (s.task t).memoryHandler.isSome) :
    InOrder (l.build t context) (schedulerTaskReady kalloc (some t)
      ((s.setKernel k).modifyTask t fun task => { task with nativeTask := some context })).2 := by
  have scheduled := order.scheduled.start kalloc k context inside created
  have view := started_dispatcher kalloc s t k context
  have after := started_task kalloc s t k context
  have grown : SameRoots s.kernel (schedulerTaskReady kalloc (some t)
      ((s.setKernel k).modifyTask t fun task => { task with nativeTask := some context })).2.kernel :=
    roots.trans (schedulerTaskReady_sameRoots calls t
      ((s.setKernel k).modifyTask t fun task => { task with nativeTask := some context }))
  generalize schedulerTaskReady kalloc (some t)
    ((s.setKernel k).modifyTask t fun task => { task with nativeTask := some context }) = started
    at scheduled view after grown ⊢
  have unplaced : ¬ s.dispatcher.Placed t := fun placed => by
    have ready : (s.task t).status = .ready := of_decide_eq_true (order.scheduled.exclusive.ready t placed)
    rw [created] at ready
    exact absurd ready (by decide)
  have current : started.2.currentTask = s.currentTask := congrArg Dispatcher.current view
  have queued : ∀ u ∈ started.2.queue, u ∈ s.queue ∨ u = t := fun u member => by
    have waits : u ∈ started.2.dispatcher.queue := member
    rw [view] at waits
    exact Dispatcher.mem_enroll_queue waits
  have handler : ∀ u, (started.2.task u).memoryHandler = (s.task u).memoryHandler := fun u => by
    rw [after]
    split <;> rfl
  refine ⟨scheduled, ⟨fun u v isHandler => ?_, fun u placed => ?_⟩, fun u member => ?_, fun u running => ?_,
    fun u v running isHandler => ?_⟩
  · rw [handler] at isHandler
    exact (order.homed.known u v isHandler).trans_le grown.count
  · rw [handler]
    rcases placed with running | waits
    · exact order.homed.placed u (Or.inl (current.symm.trans running))
    · rcases queued u waits with before | rfl
      · exact order.homed.placed u (Or.inr before)
      · exact memory
  · rw [after]
    by_cases same : u = t
    · rw [if_pos same, same, Ledger.build_context_self]
    · rw [if_neg same, Ledger.build_context_of_ne same]
      exact order.saved u ((queued u member).resolve_right same)
  · rw [current] at running
    have other : u ≠ t := fun same => unplaced (Or.inl (by rw [← same]; exact running))
    obtain ⟨saved, isSaved, selectors⟩ := order.running u running
    refine ⟨saved, ?_, ?_⟩
    · rw [after, if_neg other]
      exact isSaved
    · rw [selectors]
      simp [Ledger.build, other]
  · rw [current] at running
    rw [handler] at isHandler
    rw [grown.cr3, grown.root v (order.homed.known u v isHandler)]
    exact order.active u v running isHandler

/-- `task_run`: the task gets the context that is noted for it. -/
theorem InOrder.run (calls : ∀ size k, SameRoots k (kalloc size k).2) (order : InOrder l s) (task : Option Nat)
    (code : Nat) (known : ∀ t ∈ task, t < s.tasks.count) :
    InOrder (KernelEvent.enter kalloc s l (.run task code)) (taskRun kalloc task code s).2 := by
  rcases taskRun_cases kalloc s task code (Q := SameRoots s.kernel) (SameRoots.refl _)
    (fun vmem => vmemRegionCreate_sameRoots calls _ _ _ _ _ _ _ _)
    (fun size k before => before.trans (calls size k)) with
    ⟨k, roots, failed⟩ | ⟨t, k, stack, roots, rfl, created, memory, done⟩
  · have unnoted : KernelEvent.enter kalloc s l (.run task code) = l := by
      cases task with
      | none => rfl
      | some t =>
          rw [KernelEvent.enter, failed]
          rfl
    rw [unnoted, failed]
    exact order.carry_same ⟨⟨fun _ => rfl, rfl, rfl⟩, Nat.le_refl _, roots, fun _ _ => rfl,
      fun t v handler => (order.homed.known t v handler).trans_le roots.count⟩ fun _ _ => rfl
  · rw [KernelEvent.enter, done]
    dsimp only
    rw [if_pos rfl, started_task, if_pos rfl]
    exact order.start calls roots _ (known t rfl) created memory

/-! ## Runs of events -/

/-- What an event that enters the kernel does, as its handler does it. -/
theorem Resumes.entered {result : Outcome × TaskSystem} (resumes : Resumes l result) :
    InOrder l (result.map some id).2 ∧
      (∀ t, (result.map some id).2.currentTask = some t → ∃ context, (result.map some id).1 = some (.resume context)) ∧
      ∀ context t, (result.map some id).1 = some (.resume context) →
        (result.map some id).2.currentTask = some t → context = l.context t :=
  ⟨resumes.order, fun t running => (resumes.resumes t running).imp fun _ outcome => congrArg some outcome,
    fun context t outcome => resumes.resumed context t (Option.some.inj outcome)⟩

/-- An interrupt of any number. -/
theorem InOrder.interrupt (calls : ∀ size k, SameRoots k (kalloc size k).2) (order : InOrder l s) (loaded : Loaded l s)
    (number : Nat) (frame : NativeTask) (genuine : s.currentTask.isSome → (frame.cs, frame.ss) = l.resumed) :
    Resumes (KernelEvent.enter kalloc s l (.interrupt number frame)) (interruptHandler kalloc frame number s) := by
  cases current : s.currentTask with
  | none =>
      rw [KernelEvent.enter, current]
      exact interruptHandler_idle calls order current number frame
  | some t =>
      rw [KernelEvent.enter, current]
      refine interruptHandler_current calls order current number frame ?_
      rw [genuine (by rw [current]; rfl), loaded t current]

theorem InOrder.syscall (calls : ∀ size k, SameRoots k (kalloc size k).2) (order : InOrder l s) (context : NativeTask) :
    Resumes (KernelEvent.enter kalloc s l (.syscall context)) (syscallJumper kalloc (syscallEntry context) s) := by
  cases current : s.currentTask with
  | none =>
      rw [KernelEvent.enter, current]
      exact syscallJumper_idle calls order current (syscallEntry context)
  | some t =>
      rw [KernelEvent.enter, current]
      exact syscallJumper_current calls order current context

/-- A service that returns leaves the running task with its selectors. -/
theorem KernelEvent.returns_running (order : InOrder l s) (event : KernelEvent)
    (returns : (event.handle kalloc s).1 = none) (running : (event.handle kalloc s).2.currentTask = some t) :
    s.currentTask = some t ∧ (event.enter kalloc s l).selectors t = l.selectors t := by
  cases event with
  | interrupt => cases returns
  | syscall => cases returns
  | boot => cases returns
  | create name vmem =>
      exact ⟨(order.scheduled.create_same kalloc name vmem).1.currentTask.symm.trans running, rfl⟩
  | setKernelMode task => exact ⟨(taskSetKernelMode_same task s).1.currentTask.symm.trans running, rfl⟩
  | destroy task =>
      cases task with
      | none => exact ⟨running, rfl⟩
      | some u =>
          have current : (taskDestroy kalloc (some u) s).2.dispatcher.current = some t := running
          rw [taskDestroy_dispatcher] at current
          exact ⟨(Dispatcher.withdraw_running.mp current).1, rfl⟩
  | run task code =>
      rw [handle] at running
      rcases taskRun_cases kalloc s task code (Q := fun _ => True) trivial (fun _ => trivial)
        (fun _ _ _ => trivial) with ⟨k, -, failed⟩ | ⟨u, k, stack, -, rfl, created, -, done⟩
      · rw [failed] at running
        refine ⟨running, ?_⟩
        cases task with
        | none => rfl
        | some u =>
            rw [enter, failed]
            rfl
      · rw [done] at running
        have current : s.currentTask = some t :=
          (congrArg Dispatcher.current (started_dispatcher kalloc s u k _)).symm.trans running
        have ready : (s.task t).status = .ready :=
          of_decide_eq_true (order.scheduled.exclusive.ready t (Or.inl current))
        have other : t ≠ u := fun same => by
          rw [same, created] at ready
          cases ready
        refine ⟨current, ?_⟩
        rw [enter, done]
        exact Function.update_of_ne other _ _

/-- Every event keeps the order, and resumes the task of the ledger. -/
theorem KernelEvent.handle_inOrder (calls : ∀ size k, SameRoots k (kalloc size k).2) (order : InOrder l s)
    (loaded : Loaded l s) (event : KernelEvent) (genuine : event.Genuine l s) :
    InOrder (event.note kalloc s l) (event.handle kalloc s).2 ∧
      Loaded (event.note kalloc s l) (event.handle kalloc s).2 ∧
      ∀ context t, (event.handle kalloc s).1 = some (.resume context) →
        (event.handle kalloc s).2.currentTask = some t → context = (event.note kalloc s l).context t := by
  have after : InOrder (event.enter kalloc s l) (event.handle kalloc s).2 ∧
      ((event.handle kalloc s).1 = none ∨ ∀ t, (event.handle kalloc s).2.currentTask = some t →
        ∃ context, (event.handle kalloc s).1 = some (.resume context)) ∧
      ∀ context t, (event.handle kalloc s).1 = some (.resume context) →
        (event.handle kalloc s).2.currentTask = some t → context = (event.enter kalloc s l).context t := by
    cases event with
    | interrupt number frame =>
        obtain ⟨after, resumes, resumed⟩ := (order.interrupt calls loaded number frame genuine).entered
        exact ⟨after, Or.inr resumes, resumed⟩
    | syscall context =>
        obtain ⟨after, resumes, resumed⟩ := (order.syscall calls context).entered
        exact ⟨after, Or.inr resumes, resumed⟩
    | boot =>
        obtain ⟨after, resumes, resumed⟩ := ((order.poised_of_idle genuine).resumes_switch calls).entered
        exact ⟨after, Or.inr resumes, resumed⟩
    | create name vmem => exact ⟨order.create calls name vmem genuine, Or.inl rfl, fun _ _ none => by cases none⟩
    | setKernelMode task => exact ⟨order.setKernelMode task, Or.inl rfl, fun _ _ none => by cases none⟩
    | run task code => exact ⟨order.run calls task code genuine, Or.inl rfl, fun _ _ none => by cases none⟩
    | destroy task =>
        cases task with
        | none => exact ⟨order, Or.inl rfl, fun _ _ none => by cases none⟩
        | some t => exact ⟨order.destroy (genuine t rfl), Or.inl rfl, fun _ _ none => by cases none⟩
  obtain ⟨inOrder, leaves, resumed⟩ := after
  refine ⟨⟨inOrder.scheduled, inOrder.homed, inOrder.saved, inOrder.running, inOrder.active⟩, fun t running => ?_,
    resumed⟩
  rcases leaves with returns | resumes
  · obtain ⟨before, same⟩ := event.returns_running order returns running
    unfold note
    rw [returns]
    exact (loaded t before).trans same.symm
  · obtain ⟨context, outcome⟩ := resumes t running
    have own := resumed context t outcome running
    unfold note
    rw [outcome]
    exact congrArg (fun context : NativeTask => (context.cs, context.ss)) own

theorem boot_inOrder (kalloc : Kalloc) (k : Kernel) (l : Ledger) :
    InOrder l (taskServiceInitialize kalloc (schedulerInitialise kalloc (TaskSystem.start k)).2) := by
  have idle : (taskServiceInitialize kalloc (schedulerInitialise kalloc (TaskSystem.start k)).2).currentTask = none :=
    rfl
  have empty : (taskServiceInitialize kalloc (schedulerInitialise kalloc (TaskSystem.start k)).2).queue = [] :=
    linkedlistCreate_items kalloc k
  have blank : ∀ t, (taskServiceInitialize kalloc (schedulerInitialise kalloc (TaskSystem.start k)).2).task t =
      .zero := fun _ => rfl
  generalize taskServiceInitialize kalloc (schedulerInitialise kalloc (TaskSystem.start k)).2 = s at idle empty blank ⊢
  have stopped : ∀ t, s.currentTask ≠ some t := fun t running => by simp [idle] at running
  refine ⟨⟨Dispatcher.exclusive_of_idle idle empty, fun t begun => ?_⟩, ⟨fun t v handler => ?_, ?_⟩, ?_,
    fun t running => absurd running (stopped t), fun t v running => absurd running (stopped t)⟩
  · rw [blank] at begun
    exact absurd rfl begun
  · rw [blank] at handler
    exact absurd handler (by simp [Task.zero])
  · rintro t (running | waits)
    · exact absurd running (stopped t)
    · exact absurd waits (by rw [show s.dispatcher.queue = [] from empty]; exact List.not_mem_nil)
  · rw [empty]
    exact fun t waits => absurd waits List.not_mem_nil

theorem KernelRun.inOrder (calls : ∀ size k, SameRoots k (kalloc size k).2) (run : KernelRun kalloc l s) :
    InOrder l s ∧ Loaded l s := by
  induction run with
  | boot k l => exact ⟨boot_inOrder kalloc k l, fun t running => by cases running⟩
  | step _ event genuine ih =>
      obtain ⟨order, loaded, -⟩ := event.handle_inOrder calls ih.1 ih.2 genuine
      exact ⟨order, loaded⟩

/-! ## Saved contexts of the others -/

/-- Whether the event starts the task. -/
def KernelEvent.Starts (t : Nat) : KernelEvent → Prop
  | run task _ => task = some t
  | _ => False

theorem switch_nativeTask (u : Nat) :
    ((schedulerSwitchTask kalloc s).2.task u).nativeTask = (s.task u).nativeTask := by
  rw [task_of_tasks schedulerSwitchTask_tasks]

theorem destroy_nativeTask (task : Option Nat) (u : Nat) :
    ((taskDestroy kalloc task s).2.task u).nativeTask = (s.task u).nativeTask := by
  cases task with
  | none => rfl
  | some t => exact taskDestroy_nativeTask t u

theorem halUpdateCurrentState_nativeTask (frame : NativeTask) (other : s.currentTask ≠ some u) :
    ((halUpdateCurrentState frame s).2.2.task u).nativeTask = (s.task u).nativeTask := by
  unfold halUpdateCurrentState
  cases current : s.currentTask with
  | none => rfl
  | some t =>
      have different : u ≠ t := fun same => other (by rw [same]; exact current)
      dsimp only
      rw [store_task, if_neg different]

theorem preSyscall_nativeTask (pointer : ContextPointer) (context : NativeTask) (other : pointer ≠ .saved u) :
    ((preSyscall kalloc pointer context s).2.task u).nativeTask = (s.task u).nativeTask := by
  rcases preSyscall_cases kalloc pointer context s with ⟨-, ended⟩ | ⟨value, -, answered⟩
  · rw [ended, switch_nativeTask, destroy_nativeTask]
  · rw [answered]
    cases pointer with
    | stack => rfl
    | saved t =>
        have different : u ≠ t := fun same => other (by rw [same])
        rw [store_task, if_neg different]

theorem interruptHandler_nativeTask (number : Nat) (frame : NativeTask) (other : s.currentTask ≠ some u) :
    ((interruptHandler kalloc frame number s).2.task u).nativeTask = (s.task u).nativeTask := by
  rcases interruptHandler_cases kalloc frame number s with ⟨-, saved⟩ | ⟨-, faulted⟩ | ⟨-, called⟩
  · rw [saved, switch_nativeTask, halUpdateCurrentState_nativeTask frame other]
  · rw [faulted, handleFault_eq, switch_nativeTask, destroy_nativeTask]
  · rw [called, preSyscall_nativeTask .stack frame (by simp)]

theorem syscallJumper_nativeTask (entry : NativeTask) (other : s.currentTask ≠ some u) :
    ((syscallJumper kalloc entry s).2.task u).nativeTask = (s.task u).nativeTask := by
  have pointer : (halUpdateCurrentState (syscallFrame entry) s).1 ≠ .saved u := by
    unfold halUpdateCurrentState
    cases current : s.currentTask with
    | none => simp
    | some t =>
        rw [current] at other
        simpa using other
  unfold syscallJumper
  dsimp only
  rw [preSyscall_nativeTask _ _ pointer, halUpdateCurrentState_nativeTask _ other]

theorem taskRun_nativeTask (task : Option Nat) (code : Nat) (other : task ≠ some u) :
    ((taskRun kalloc task code s).2.task u).nativeTask = (s.task u).nativeTask := by
  rcases taskRun_cases kalloc s task code (Q := fun _ => True) trivial (fun _ => trivial)
    (fun _ _ _ => trivial) with ⟨k, -, failed⟩ | ⟨t, k, stack, -, rfl, -, -, done⟩
  · rw [failed]
    rfl
  · have different : u ≠ t := fun same => other (by rw [same])
    rw [done]
    dsimp only
    rw [started_task, if_neg different]

theorem taskCreate_nativeTask (name : String) (vmem : Option Nat) (inside : u < s.tasks.count) :
    ((taskCreate kalloc name vmem s).2.task u).nativeTask = (s.task u).nativeTask := by
  obtain ⟨k, -, failed | ⟨id, mapper, created⟩⟩ :=
    taskCreate_cases kalloc s (Q := fun _ => True) name vmem trivial (fun _ _ _ => trivial)
  · rw [failed]
    rfl
  · rw [created]
    exact congrArg Task.nativeTask (Store.new_get_of_ne inside.ne)

/-- Whatever the event, a task that is not the current one and is not started keeps its saved
context. -/
theorem KernelEvent.handle_nativeTask (event : KernelEvent) (inside : u < s.tasks.count)
    (other : s.currentTask ≠ some u) (unstarted : ¬ event.Starts u) :
    ((event.handle kalloc s).2.task u).nativeTask = (s.task u).nativeTask := by
  cases event with
  | interrupt number frame => exact interruptHandler_nativeTask number frame other
  | syscall context => exact syscallJumper_nativeTask (syscallEntry context) other
  | boot => exact switch_nativeTask u
  | create name vmem => exact taskCreate_nativeTask name vmem inside
  | setKernelMode task => exact (taskSetKernelMode_task task s u).1
  | run task code => exact taskRun_nativeTask task code unstarted
  | destroy task => exact destroy_nativeTask task u

/-- In every run of events, a task that is resumed gets the context it last entered the kernel with,
or the one it was created with, with the answer of a system call and the selectors of its creation,
and its own page table is loaded.  No event changes the saved context of a task that is neither
the current one nor started by it. -/
theorem resumed_with_own_context (run : KernelRun BubackOS.kalloc l s) (event : KernelEvent)
    (genuine : event.Genuine l s) :
    (∀ context t, (event.handle BubackOS.kalloc s).1 = some (.resume context) →
      (event.handle BubackOS.kalloc s).2.currentTask = some t →
        context = (event.note BubackOS.kalloc s l).context t ∧
        ∃ v, ((event.handle BubackOS.kalloc s).2.task t).memoryHandler = some v ∧
          (event.handle BubackOS.kalloc s).2.kernel.core.cr3 =
            ((event.handle BubackOS.kalloc s).2.kernel.native v).entries) ∧
    ∀ u < s.tasks.count, s.currentTask ≠ some u → ¬ event.Starts u →
      ((event.handle BubackOS.kalloc s).2.task u).nativeTask = (s.task u).nativeTask := by
  obtain ⟨before, loaded⟩ := run.inOrder kalloc_sameRoots
  obtain ⟨order, -, resumed⟩ := event.handle_inOrder kalloc_sameRoots before loaded genuine
  refine ⟨fun context t outcome running => ⟨resumed context t outcome running, ?_⟩,
    fun u inside other unstarted => event.handle_nativeTask inside other unstarted⟩
  obtain ⟨v, handler⟩ := Option.isSome_iff_exists.mp (order.homed.placed t (Or.inl running))
  exact ⟨v, handler, order.active t v running handler⟩

/-- One task that was created, started and given the processor. -/
def sampleRunning : TaskSystem :=
  (KernelEvent.boot.handle BubackOS.kalloc ((KernelEvent.run (some 0) 0x400000).handle BubackOS.kalloc
    ((KernelEvent.create "init" (some 0)).handle BubackOS.kalloc (taskServiceInitialize BubackOS.kalloc
      (schedulerInitialise BubackOS.kalloc (TaskSystem.start (vmemStart BubackOS.kalloc sampleKernel))).2)).2).2).2

theorem sampleRunning_run : ∃ l, KernelRun BubackOS.kalloc l sampleRunning := by
  refine ⟨_, .step (.step (.step (.boot (vmemStart BubackOS.kalloc sampleKernel) ⟨fun _ => .zero, fun _ => none,
    fun _ => (0, 0), (0, 0)⟩) (.create "init" (some 0)) ?_) (.run (some 0) 0x400000) ?_) .boot ?_⟩
  · rintro v ⟨⟩
    decide +kernel
  · rintro t ⟨⟩
    decide +kernel
  · unfold KernelEvent.Genuine
    decide +kernel

/-- The task logs something with the syscall instruction and goes on with its registers and the
answer. -/
theorem resumed_with_own_context_sampleRunning :
    ∃ l : Ledger, ∃ context, (KernelEvent.handle BubackOS.kalloc sampleRunning
        (.syscall { NativeTask.zero with rdi := 2, rbx := 7 })).1 = some (.resume context) ∧
      context = (KernelEvent.note BubackOS.kalloc sampleRunning l
        (.syscall { NativeTask.zero with rdi := 2, rbx := 7 })).context 0 ∧ context.rbx = 7 ∧ context.rax = 0 := by
  obtain ⟨l, run⟩ := sampleRunning_run
  have running : (KernelEvent.handle BubackOS.kalloc sampleRunning
      (.syscall { NativeTask.zero with rdi := 2, rbx := 7 })).2.currentTask = some 0 := by decide +kernel
  have resumed : (KernelEvent.handle BubackOS.kalloc sampleRunning
      (.syscall { NativeTask.zero with rdi := 2, rbx := 7 })).1 =
        some (.resume { NativeTask.zero with rdi := 2, rbx := 7, cs := 51, ss := 67 }) := by decide +kernel
  have own := ((resumed_with_own_context run (.syscall { NativeTask.zero with rdi := 2, rbx := 7 }) trivial).1
    _ 0 resumed running).1
  exact ⟨l, _, resumed, own, rfl, rfl⟩

end BubackOS
