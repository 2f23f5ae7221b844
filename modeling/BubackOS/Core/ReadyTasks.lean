import BubackOS.Core.Rotation
import BubackOS.Core.TaskRuns

/-!
# Ready tasks

`scheduler_clear_current_task` and `scheduler_task_ready` ignore whether the list node for
the task was allocated.  A task that gets none is `READY` and neither runs nor waits, so it
never runs again.  `scheduler_switch_task` looks at the queue alone, and puts the processor
to sleep although the task it has just interrupted could go on.
-/

namespace BubackOS

open Library TaskSystem

variable {kalloc : Kalloc} {s : TaskSystem}

/-- Every `READY` task runs or waits. -/
def NoneLost (s : TaskSystem) : Prop :=
  ∀ t, (s.task t).status = .ready → s.currentTask = some t ∨ t ∈ s.queue

theorem noneLost_iff : NoneLost s ↔ s.dispatcher.Complete :=
  forall_congr' fun _ => imp_congr_left decide_eq_true_iff.symm

/-! ## One step -/

/-- `task_run` up to the call of `scheduler_task_ready`, which it reaches with a task. -/
def taskPrepare (kalloc : Kalloc) (task : Option Nat) (code : Nat) (s : TaskSystem) :
    Option Nat × TaskSystem :=
  match task with
  | none => (none, s)
  | some t =>
      if (s.task t).status ≠ .created then (none, s)
      else
        let region := vmemRegionCreate kalloc (s.task t).memoryHandler (some "?-stack") 0
          taskDefaultStackSize true true true s.kernel
        let stacked := s.setKernel region.2
        match region.1 with
        | none => (none, stacked)
        | some r =>
            let stack := wrapSub (wrap ((region.2.region r).start + (region.2.region r).size)) 8
            let native := nativeTaskCreate kalloc t code stack (s.task t).kernel (s.task t).userdata stacked
            (if native.1 then some t else none, native.2)

theorem taskRun_eq (kalloc : Kalloc) (task : Option Nat) (code : Nat) (s : TaskSystem) :
    taskRun kalloc task code s =
      match (taskPrepare kalloc task code s).1 with
      | none => (false, (taskPrepare kalloc task code s).2)
      | some t => (true, (schedulerTaskReady kalloc (some t) (taskPrepare kalloc task code s).2).2) := by
  unfold taskRun taskPrepare
  cases task with
  | none => rfl
  | some t =>
      dsimp only
      split
      · rfl
      · generalize vmemRegionCreate kalloc (s.task t).memoryHandler (some "?-stack") 0
          taskDefaultStackSize true true true s.kernel = region
        cases region.1 with
        | none => rfl
        | some r =>
            dsimp only
            generalize nativeTaskCreate kalloc t code _ _ _ _ = native
            cases native.1 <;> rfl

theorem taskPrepare_same (kalloc : Kalloc) (task : Option Nat) (code : Nat) (s : TaskSystem) :
    SameSchedule s (taskPrepare kalloc task code s).2 := by
  have native : ∀ t code stack mode userdata (k : Kernel),
      SameSchedule s (nativeTaskCreate kalloc t code stack mode userdata (s.setKernel k)).2 := by
    intro t code stack mode userdata k
    rcases nativeTaskCreate_cases kalloc (s.setKernel k) t code stack mode userdata with failed | done
    · rw [failed]
      exact ⟨fun _ => rfl, rfl, rfl⟩
    · rw [done]
      refine ⟨fun u => ?_, rfl, rfl⟩
      by_cases here : u = t
      · subst here
        dsimp only
        rw [modifyTask_task_self]
        rfl
      · exact congrArg Task.status (modifyTask_task_of_ne here)
  unfold taskPrepare
  cases task with
  | none => exact ⟨fun _ => rfl, rfl, rfl⟩
  | some t =>
      dsimp only
      split
      · exact ⟨fun _ => rfl, rfl, rfl⟩
      · generalize vmemRegionCreate kalloc (s.task t).memoryHandler (some "?-stack") 0
          taskDefaultStackSize true true true s.kernel = region
        cases region.1 with
        | none => exact ⟨fun _ => rfl, rfl, rfl⟩
        | some r => exact native _ _ _ _ _ _

/-- What moves tasks: the task services, the scheduler functions they are made of, and anything
else the kernel does in between. -/
inductive ScheduleOp where
  | service (op : TaskOp)
  | clear
  | ready (task : Option Nat)
  | elsewhere (k : Kernel)

namespace ScheduleOp

def apply (kalloc : Kalloc) (s : TaskSystem) : ScheduleOp → TaskSystem
  | .service op => op.apply kalloc s
  | .clear => schedulerClearCurrentTask kalloc s
  | .ready task => (schedulerTaskReady kalloc task s).2
  | .elsewhere k => s.setKernel k

/-- The task that the step appends to the queue gets its node, or is in its place without it. -/
def Queues (kalloc : Kalloc) (s : TaskSystem) : ScheduleOp → Prop
  | .service .switch | .clear => s.dispatcher.Spares (s.nodeServed kalloc)
  | .service (.run t code) => ∀ u ∈ (taskPrepare kalloc t code s).1,
      (taskPrepare kalloc t code s).2.nodeServed kalloc = true ∨ s.dispatcher.Placed u
  | .ready t => ∀ u ∈ t, s.nodeServed kalloc = true ∨ s.dispatcher.Placed u
  | _ => True

end ScheduleOp

theorem taskCreate_complete (complete : s.dispatcher.Complete) (name : String) (vmem : Option Nat) :
    (taskCreate kalloc name vmem s).2.dispatcher.Complete := by
  obtain ⟨k, -, failed | ⟨id, mapper, created⟩⟩ := taskCreate_cases kalloc s (Q := fun _ => True) name vmem
    trivial fun _ _ _ => trivial
  · rw [failed]
    exact complete
  · rw [created]
    intro t ready
    refine complete t ?_
    by_cases here : t = s.tasks.count
    · -- the new task is `CREATED`
      subst here
      have status := of_decide_eq_true ready
      rw [TaskSystem.task, Store.new_get_self] at status
      cases status
    · have old := of_decide_eq_true ready
      rw [TaskSystem.task, Store.new_get_of_ne here] at old
      exact decide_eq_true old

/-- Exits and faults take the current task away first, so that nothing is to be queued. -/
theorem destroyCurrent_complete (kalloc : Kalloc) (complete : s.dispatcher.Complete) :
    (schedulerSwitchTask kalloc (taskDestroy kalloc s.currentTask s).2).2.dispatcher.Complete := by
  rw [schedulerSwitchTask_dispatcher]
  cases current : s.currentTask with
  | none => exact complete.switch_iff.mpr (Dispatcher.spares_of_idle current)
  | some c =>
      rw [taskDestroy_dispatcher]
      refine complete.withdraw.switch_iff.mpr (Dispatcher.spares_of_idle ?_)
      exact if_pos current

theorem schedulerTaskReady_complete_iff (kalloc : Kalloc) (complete : s.dispatcher.Complete) (task : Option Nat) :
    (schedulerTaskReady kalloc task s).2.dispatcher.Complete ↔
      ∀ u ∈ task, s.nodeServed kalloc = true ∨ s.dispatcher.Placed u := by
  cases task with
  | none => exact iff_of_true complete fun _ absent => by cases absent
  | some t =>
      rw [schedulerTaskReady_dispatcher, complete.enroll_iff]
      simp

theorem taskRun_complete_iff (kalloc : Kalloc) (complete : s.dispatcher.Complete) (task : Option Nat) (code : Nat) :
    (taskRun kalloc task code s).2.dispatcher.Complete ↔ ∀ u ∈ (taskPrepare kalloc task code s).1,
      (taskPrepare kalloc task code s).2.nodeServed kalloc = true ∨ s.dispatcher.Placed u := by
  have same := (taskPrepare_same kalloc task code s).dispatcher
  rw [taskRun_eq]
  generalize taskPrepare kalloc task code s = prepared at same ⊢
  rw [← same] at complete ⊢
  rw [← schedulerTaskReady_complete_iff kalloc complete prepared.1]
  cases prepared.1 <;> rfl

/-- A step loses no ready task exactly if the task it queues gets its node. -/
theorem ScheduleOp.complete_iff (complete : s.dispatcher.Complete) (op : ScheduleOp) :
    (op.apply kalloc s).dispatcher.Complete ↔ op.Queues kalloc s := by
  cases op with
  | clear =>
      unfold apply
      rw [schedulerClearCurrentTask_dispatcher]
      exact complete.clear_iff
  | ready task => exact schedulerTaskReady_complete_iff kalloc complete task
  | elsewhere k => exact iff_of_true complete trivial
  | service op =>
      cases op with
      | create name vmem => exact iff_of_true (taskCreate_complete complete name vmem) trivial
      | setKernelMode task =>
          refine iff_of_true ?_ trivial
          unfold apply TaskOp.apply
          rw [(taskSetKernelMode_same task s).1.dispatcher]
          exact complete
      | run task code => exact taskRun_complete_iff kalloc complete task code
      | destroy task =>
          refine iff_of_true ?_ trivial
          cases task with
          | none => exact complete
          | some t =>
              unfold apply TaskOp.apply
              rw [taskDestroy_dispatcher]
              exact complete.withdraw
      | taskExit => exact iff_of_true (destroyCurrent_complete kalloc complete) trivial
      | protectionFault | pageFault | invalidOperation =>
          refine iff_of_true ?_ trivial
          have fault := destroyCurrent_complete kalloc complete
          rw [← handleFault_eq] at fault
          exact fault
      | switch =>
          unfold apply TaskOp.apply
          rw [schedulerSwitchTask_dispatcher]
          exact complete.switch_iff

/-! ## Runs -/

/-- The system after `scheduler_initialise` and `task_service_initialize`. -/
def tasksBooted (kalloc : Kalloc) (k : Kernel) : TaskSystem :=
  taskServiceInitialize kalloc (schedulerInitialise kalloc (TaskSystem.start k)).2

namespace ScheduleOp

/-- No ready task is lost at any moment of the run. -/
def NeverLoses (kalloc : Kalloc) : List ScheduleOp → TaskSystem → Prop
  | [], s => NoneLost s
  | op :: rest, s => NoneLost s ∧ NeverLoses kalloc rest (op.apply kalloc s)

/-- Every step queues what it has to. -/
def AlwaysQueues (kalloc : Kalloc) : List ScheduleOp → TaskSystem → Prop
  | [], _ => True
  | op :: rest, s => op.Queues kalloc s ∧ AlwaysQueues kalloc rest (op.apply kalloc s)

end ScheduleOp

theorem tasksBooted_noneLost (kalloc : Kalloc) (k : Kernel) : NoneLost (tasksBooted kalloc k) := by
  intro t ready
  cases ready

theorem neverLoses_iff (kalloc : Kalloc) (ops : List ScheduleOp) : ∀ s, NoneLost s →
    (ScheduleOp.NeverLoses kalloc ops s ↔ ScheduleOp.AlwaysQueues kalloc ops s) := by
  induction ops with
  | nil => exact fun s none => iff_of_true none trivial
  | cons op rest ih =>
      intro s none
      have step : NoneLost (op.apply kalloc s) ↔ op.Queues kalloc s := by
        rw [noneLost_iff]
        exact op.complete_iff (noneLost_iff.mp none)
      unfold ScheduleOp.NeverLoses ScheduleOp.AlwaysQueues
      refine ⟨fun ⟨_, never⟩ => ?_, fun ⟨queues, always⟩ => ⟨none, (ih _ (step.mpr queues)).mpr always⟩⟩
      have next : NoneLost (op.apply kalloc s) := by
        cases rest with
        | nil => exact never
        | cons _ _ => exact never.1
      exact ⟨step.mp next, (ih _ next).mp never⟩

/-- Whatever fails, a run from the start loses no ready task exactly if each of its steps queues the
task it has to queue. -/
theorem ready_tasks_kept_iff (kalloc : Kalloc) (k : Kernel) (ops : List ScheduleOp) :
    ScheduleOp.NeverLoses kalloc ops (tasksBooted kalloc k) ↔
      ScheduleOp.AlwaysQueues kalloc ops (tasksBooted kalloc k) :=
  neverLoses_iff kalloc ops _ (tasksBooted_noneLost kalloc k)

theorem afterSwitches_one : afterSwitches kalloc 1 s = (schedulerSwitchTask kalloc s).2 := rfl

/-- A ready task that neither runs nor waits after a switch is lost. -/
theorem not_noneLost_of_switch {t u : Nat} (ready : (s.task t).status = .ready)
    (running : (schedulerSwitchTask kalloc s).2.currentTask = some u) (other : u ≠ t)
    (empty : (schedulerSwitchTask kalloc s).2.queue = []) : ¬ NoneLost (schedulerSwitchTask kalloc s).2 := by
  intro none
  have kept : ((schedulerSwitchTask kalloc s).2.task t).status = .ready := by
    rw [TaskSystem.task, schedulerSwitchTask_tasks]
    exact ready
  rcases none t kept with runs | waits
  · exact other (Option.some.inj (running.symm.trans runs))
  · rw [empty] at waits
    cases waits

/-- With the memory used up, the task that loses the processor is in no place any more. -/
theorem interrupted_task_lost :
    exhaustedPair.currentTask = some 0 ∧ ¬ NoneLost (schedulerSwitchTask BubackOS.kalloc exhaustedPair).2 := by
  obtain ⟨⟨running, -, ready, -⟩, switched, empty, -⟩ := exhaustedPair_facts
  rw [afterSwitches_one] at switched empty
  exact ⟨running, not_noneLost_of_switch ready switched (by decide) empty⟩

/-! ## Sleeping -/

theorem schedulerSwitchTask_sleeps_iff : (schedulerSwitchTask kalloc s).1 = .sleep ↔ s.queue = [] := by
  unfold schedulerSwitchTask
  cases queue : s.queue with
  | nil =>
      rw [getNextTask_of_nil queue]
      exact iff_of_true rfl rfl
  | cons t rest =>
      rw [getNextTask_of_cons queue]
      exact iff_of_false nofun nofun

theorem taskRun_dispatcher (kalloc : Kalloc) (s : TaskSystem) (task : Option Nat) (code : Nat) :
    (taskRun kalloc task code s).2.dispatcher =
      match (taskPrepare kalloc task code s).1 with
      | none => s.dispatcher
      | some t => s.dispatcher.enroll ((taskPrepare kalloc task code s).2.nodeServed kalloc) t := by
  have same := (taskPrepare_same kalloc task code s).dispatcher
  rw [taskRun_eq]
  generalize taskPrepare kalloc task code s = prepared at same ⊢
  cases prepared.1 with
  | none => exact same
  | some t =>
      rw [← same]
      exact schedulerTaskReady_dispatcher

/-- Only a task that was created and not yet started gets to `scheduler_task_ready`. -/
theorem taskPrepare_created {task : Option Nat} {code t : Nat} (prepared : (taskPrepare kalloc task code s).1 = some t) :
    (s.task t).status = .created := by
  unfold taskPrepare at prepared
  cases task with
  | none => cases prepared
  | some u =>
      dsimp only at prepared
      split at prepared
      · cases prepared
      · rename_i created
        split at prepared
        · cases prepared
        · split at prepared
          · rw [← Option.some.inj prepared]
            exact not_not.mp created
          · cases prepared

/-- What a step enters on the roster: a task that is started, with the answer to the request for its
node; a task that ends; and the task that loses the processor, with the answer for its node. -/
def TaskOp.enter (kalloc : Kalloc) (s : TaskSystem) (r : Roster Nat) : TaskOp → Roster Nat
  | run task code =>
      match (taskPrepare kalloc task code s).1 with
      | none => r
      | some t => r.enlist ((taskPrepare kalloc task code s).2.nodeServed kalloc) t
  | destroy task => task.elim r r.dismiss
  | taskExit | protectionFault | pageFault | invalidOperation => s.currentTask.elim r r.dismiss
  | switch => r.preempt (s.nodeServed kalloc) s.currentTask
  | create _ _ | setKernelMode _ => r

/-- The systems that runs from the boot reach, whatever fails, each with its roster. -/
inductive RosterRun (kalloc : Kalloc) : Roster Nat → TaskSystem → Prop where
  | boot (k : Kernel) : RosterRun kalloc .empty (tasksBooted kalloc k)
  | step {r : Roster Nat} {s : TaskSystem} (reached : RosterRun kalloc r s) (op : TaskOp) (valid : op.Valid s) :
      RosterRun kalloc (op.enter kalloc s r) (op.apply kalloc s)
  | elsewhere {r : Roster Nat} {s : TaskSystem} (reached : RosterRun kalloc r s) (k : Kernel) :
      RosterRun kalloc r (s.setKernel k)

section Roster

variable {r : Roster Nat}

/-- The current task ends before the switch, which therefore queues nothing. -/
theorem destroyCurrent_records (kalloc : Kalloc) (records : r.Records s.dispatcher) :
    (s.currentTask.elim r r.dismiss).Records
      (schedulerSwitchTask kalloc (taskDestroy kalloc s.currentTask s).2).2.dispatcher := by
  rw [schedulerSwitchTask_dispatcher]
  cases current : s.currentTask with
  | none => exact records.switch_of_idle current
  | some c =>
      rw [taskDestroy_dispatcher]
      exact records.dismiss.switch_of_idle (if_pos current)

theorem TaskOp.records (kalloc : Kalloc) (scheduled : Scheduled s) (records : r.Records s.dispatcher) (op : TaskOp) :
    (op.enter kalloc s r).Records (op.apply kalloc s).dispatcher := by
  cases op with
  | create name vmem =>
      unfold apply
      rw [(scheduled.create_same kalloc name vmem).1.dispatcher]
      exact records
  | setKernelMode task =>
      unfold apply
      rw [(taskSetKernelMode_same task s).1.dispatcher]
      exact records
  | run task code =>
      unfold apply enter
      dsimp only
      rw [taskRun_dispatcher]
      cases prepared : (taskPrepare kalloc task code s).1 with
      | none => exact records
      | some t =>
          refine records.enlist (decide_eq_false ?_)
          rw [taskPrepare_created prepared]
          decide
  | destroy task =>
      cases task with
      | none => exact records
      | some t =>
          unfold apply
          rw [taskDestroy_dispatcher]
          exact records.dismiss
  | taskExit => exact destroyCurrent_records kalloc records
  | protectionFault | pageFault | invalidOperation =>
      have ended := destroyCurrent_records kalloc records
      rw [← handleFault_eq] at ended
      exact ended
  | switch =>
      unfold apply
      rw [schedulerSwitchTask_dispatcher]
      exact records.preempt

theorem RosterRun.invariant (run : RosterRun kalloc r s) : Scheduled s ∧ r.Records s.dispatcher := by
  induction run with
  | boot k =>
      have exclusive : (tasksBooted kalloc k).dispatcher.Exclusive :=
        Dispatcher.exclusive_of_idle rfl (linkedlistCreate_items kalloc k)
      refine ⟨⟨exclusive, fun _ begun => absurd rfl begun⟩, exclusive, fun t => ?_, fun t => ?_⟩
      · exact iff_of_false (fun ready => by cases ready) List.not_mem_nil
      · exact iff_of_false List.not_mem_nil fun alive => List.not_mem_nil alive.1
  | @step r s reached op valid ih =>
      obtain ⟨scheduled, records⟩ := ih
      have recorded := op.records kalloc scheduled records
      exact ⟨⟨recorded.toExclusive, fun _ => (op.evolves scheduled valid).known scheduled.known⟩, recorded⟩
  | elsewhere reached k ih => exact ⟨⟨ih.1.exclusive, ih.1.known⟩, ih.2⟩

/-- In every run, whatever fails: the `READY` tasks are those that were started and have not ended,
and a switch puts the processor to sleep only if there is none exactly if there is none, or one of
them is not the current one and has got its node whenever it had to be queued. -/
theorem sleeps_only_idle_iff (run : RosterRun kalloc r s) :
    (∀ t, (s.task t).status = .ready ↔ t ∈ r.alive) ∧
    (((schedulerSwitchTask kalloc s).1 = .sleep → ∀ t, (s.task t).status ≠ .ready) ↔
      r.alive = [] ∨ ∃ t ∈ r.alive, s.currentTask ≠ some t ∧ t ∉ r.lost) := by
  have records := run.invariant.2
  have ready : ∀ t, (s.task t).status = .ready ↔ t ∈ r.alive := fun t =>
    decide_eq_true_iff.symm.trans (records.listed t)
  have nobody : (∀ t, (s.task t).status ≠ .ready) ↔ r.alive = [] := by
    simp only [ne_eq, ready]
    exact List.eq_nil_iff_forall_not_mem.symm
  refine ⟨ready, ?_⟩
  rw [schedulerSwitchTask_sleeps_iff, nobody, imp_iff_not_or, or_comm]
  exact or_congr_right records.waiting_iff

end Roster

/-- A second task, started while the first one runs. -/
def startedPair : TaskSystem :=
  TaskOp.apply BubackOS.kalloc (TaskOp.apply BubackOS.kalloc sampleTask (.create "shell" (some 0)))
    (.run (some 1) 0x400000)

theorem startedPair_run : ∃ r, r.alive = [1, 0] ∧ RosterRun BubackOS.kalloc r startedPair := by
  refine ⟨_, ?_, .step (.step (.step (.step (.step (.boot (vmemStart BubackOS.kalloc sampleKernel))
    (.create "init" (some 0)) trivial) (.run (some 0) 0x400000) ?_) .switch trivial)
    (.create "shell" (some 0)) trivial) (.run (some 1) 0x400000) ?_⟩
  · decide +kernel
  · rintro t ⟨⟩
    decide +kernel
  · rintro t ⟨⟩
    decide +kernel

/-- While both tasks are there a switch goes on with the other one; after both have ended it sleeps,
and no task is ready. -/
theorem sleeps_only_idle_iff_startedPair :
    (schedulerSwitchTask BubackOS.kalloc startedPair).1 ≠ .sleep ∧
    (schedulerSwitchTask BubackOS.kalloc (TaskOp.taskExit.apply BubackOS.kalloc
      (TaskOp.pageFault.apply BubackOS.kalloc startedPair))).1 = .sleep ∧
    ∀ t, ((TaskOp.taskExit.apply BubackOS.kalloc (TaskOp.pageFault.apply BubackOS.kalloc startedPair)).task
      t).status ≠ .ready := by
  obtain ⟨r, alive, run⟩ := startedPair_run
  have first : startedPair.currentTask = some 0 := by decide +kernel
  have second : (TaskOp.pageFault.apply BubackOS.kalloc startedPair).currentTask = some 1 := by decide +kernel
  have sleeps : (schedulerSwitchTask BubackOS.kalloc (TaskOp.taskExit.apply BubackOS.kalloc
      (TaskOp.pageFault.apply BubackOS.kalloc startedPair))).1 = .sleep := by decide +kernel
  have ended := (run.step .pageFault trivial).step .taskExit trivial
  refine ⟨by decide +kernel, sleeps, (sleeps_only_idle_iff ended).2.mpr (Or.inl ?_) sleeps⟩
  simp [TaskOp.enter, first, second, Roster.dismiss, alive]

/-- The only task of the system is interrupted while it is ready, and the processor sleeps. -/
theorem only_task_sleeps : (sampleTask.task 0).status = .ready ∧
    (schedulerSwitchTask BubackOS.kalloc sampleTask).1 = .sleep := by
  decide +kernel

end BubackOS
