import BubackOS.Core.Contexts

/-!
# What an event does to the tasks

Whatever the kernel is entered or called for, it drops at most one task, the current one or
the one it was asked to destroy, and may switch then; or it starts a task.
-/

namespace BubackOS

open Library TaskSystem

variable {kalloc : Kalloc} {l l' : Ledger} {s s' s'' : TaskSystem} {event : KernelEvent} {gone : Option Nat} {t : Nat}

/-- The event ends in `scheduler_switch_task`. -/
def KernelEvent.switches : KernelEvent → Bool
  | interrupt number frame => number ≠ intSystemCall || frame.rdi = 1
  | syscall context => context.rdi = 1
  | boot => true
  | _ => false

/-- The code and stack selectors of a mode. -/
def ringSelectors (kernel : Bool) : Nat × Nat :=
  if kernel then (gdtSegment gdtEntryKernelCs + gdtRingSystem, gdtSegment gdtEntryKernelDs + gdtRingSystem)
  else (gdtSegment gdtEntryUserCs + gdtRingUser, gdtSegment gdtEntryUserDs + gdtRingUser)

/-- A task may be gone; the others stay in their places and modes. -/
structure Drops (gone : Option Nat) (s s' : TaskSystem) : Prop where
  dispatcher : s'.dispatcher = gone.elim s.dispatcher fun c => s.dispatcher.withdraw c
  mode : ∀ t, s.dispatcher.Placed t → (s'.task t).kernel = (s.task t).kernel

namespace Drops

theorem refl (s : TaskSystem) : Drops none s s := ⟨rfl, fun _ _ => rfl⟩

theorem trans (first : Drops none s s') (second : Drops gone s' s'') : Drops gone s s'' := by
  have same : s'.dispatcher = s.dispatcher := first.dispatcher
  refine ⟨same ▸ second.dispatcher, fun t placed => ?_⟩
  rw [second.mode t (same ▸ placed), first.mode t placed]

theorem store (pointer : ContextPointer) (context : NativeTask) : Drops none s (pointer.store context s) := by
  cases pointer with
  | stack => exact refl s
  | saved t =>
      refine ⟨SameSchedule.dispatcher ⟨fun u => ?_, rfl, rfl⟩, fun u _ => ?_⟩ <;>
      · rw [store_task]
        split <;> rfl

theorem halUpdateCurrentState (frame : NativeTask) : Drops none s (halUpdateCurrentState frame s).2.2 := by
  unfold BubackOS.halUpdateCurrentState
  cases s.currentTask with
  | none => exact refl s
  | some t => exact store (.saved t) _

theorem create (scheduled : Scheduled s) (name : String) (vmem : Option Nat) :
    Drops none s (taskCreate kalloc name vmem s).2 := by
  refine ⟨(scheduled.create_same kalloc name vmem).1.dispatcher, fun t placed => ?_⟩
  obtain ⟨k, -, failed | ⟨id, mapper, created⟩⟩ :=
    taskCreate_cases kalloc s (Q := fun _ => True) name vmem trivial (fun _ _ _ => trivial)
  · rw [failed]
    rfl
  · rw [created]
    exact congrArg Task.kernel (Store.new_get_of_ne (scheduled.inside placed).ne)

/-- The mode of a task is set before the task is scheduled. -/
theorem setKernelMode (scheduled : Scheduled s) (task : Option Nat) : Drops none s (taskSetKernelMode task s).2 := by
  refine ⟨(taskSetKernelMode_same task s).1.dispatcher, fun t placed => ?_⟩
  have ready : (s.task t).status = .ready := of_decide_eq_true (scheduled.exclusive.ready t placed)
  unfold taskSetKernelMode
  cases task with
  | none => rfl
  | some u =>
      dsimp only
      split
      · rfl
      · rename_i created
        have other : t ≠ u := fun same => created (by rw [← same, ready]; decide)
        rw [modifyTask_task_of_ne other]

theorem destroy (task : Option Nat) : Drops task s (taskDestroy kalloc task s).2 := by
  cases task with
  | none => exact refl s
  | some t =>
      refine ⟨taskDestroy_dispatcher, fun u _ => ?_⟩
      rw [taskDestroy_task]
      split <;> rfl

theorem exclusive (drops : Drops gone s s') (exclusive : s.dispatcher.Exclusive) : s'.dispatcher.Exclusive := by
  rw [drops.dispatcher]
  cases gone with
  | none => exact exclusive
  | some c => exact exclusive.withdraw

end Drops

/-- What the events do to the ledger's selectors and to the tasks. -/
inductive Effect (kalloc : Kalloc) (l : Ledger) (s : TaskSystem) (event : KernelEvent) : Ledger → TaskSystem → Prop where
  | stay {gone : Option Nat} {l' : Ledger} {s' : TaskSystem} (stays : event.switches = false)
      (drops : Drops gone s s') (asked : ∀ c ∈ gone, event = .destroy (some c))
      (selectors : l'.selectors = l.selectors) : Effect kalloc l s event l' s'
  | start {t : Nat} {context : NativeTask} (stays : event.switches = false) (k : Kernel)
      (mode : (context.cs, context.ss) = ringSelectors (s.task t).kernel) :
      Effect kalloc l s event (l.build t context) (schedulerTaskReady kalloc (some t)
        ((s.setKernel k).modifyTask t fun task => { task with nativeTask := some context })).2
  | switch {gone : Option Nat} {l' : Ledger} {s₁ : TaskSystem} (switches : event.switches = true)
      (drops : Drops gone s s₁) (current : ∀ c ∈ gone, s.currentTask = some c)
      (selectors : l'.selectors = l.selectors) : Effect kalloc l s event l' (schedulerSwitchTask kalloc s₁).2

theorem none_gone {P : Nat → Prop} : ∀ c ∈ (none : Option Nat), P c :=
  fun c impossible => absurd impossible (Option.not_mem_none c)

theorem Effect.called (pointer : ContextPointer) (context : NativeTask) (drops : Drops none s s')
    (switches : event.switches = decide (context.rdi = 1)) (selectors : l'.selectors = l.selectors) :
    Effect kalloc l s event l' (preSyscall kalloc pointer context s').2 := by
  have current : s'.currentTask = s.currentTask := congrArg Dispatcher.current drops.dispatcher
  rcases preSyscall_cases kalloc pointer context s' with ⟨answer, ended⟩ | ⟨value, answer, answered⟩
  · rw [syscallAnswer_eq] at answer
    rw [ended]
    exact .switch (switches.trans (decide_eq_true (by_contra fun other => by simp [other] at answer)))
      (drops.trans (Drops.destroy _)) (fun c isCurrent => current ▸ isCurrent) selectors
  · rw [syscallAnswer_eq] at answer
    rw [answered]
    exact .stay (switches.trans (decide_eq_false fun exit => by simp [exit] at answer))
      (drops.trans (Drops.store pointer _)) none_gone selectors

theorem KernelEvent.effect (scheduled : Scheduled s) (event : KernelEvent) :
    Effect kalloc l s event (event.note kalloc s l) (event.handle kalloc s).2 := by
  have selectors : (∀ task code, event ≠ .run task code) → (event.note kalloc s l).selectors = l.selectors := by
    intro unstarted
    cases event with
    | run task code => exact absurd rfl (unstarted task code)
    | _ => cases current : s.currentTask <;> simp only [note, enter, current] <;> rfl
  cases event with
  | interrupt number frame =>
      have same := selectors fun _ _ same => by cases same
      rw [handle]
      rcases interruptHandler_cases kalloc frame number s with ⟨other, saved⟩ | ⟨other, faulted⟩ | ⟨isCall, called⟩
      · rw [saved]
        exact .switch (by simp [switches, other]) (Drops.halUpdateCurrentState frame) none_gone same
      · rw [faulted, handleFault_eq]
        exact .switch (by simp [switches, other]) (Drops.destroy _) (fun c isCurrent => isCurrent) same
      · rw [called]
        exact Effect.called .stack frame (.refl s) (by simp [switches, isCall]) same
  | syscall context =>
      refine Effect.called _ _ (Drops.halUpdateCurrentState _) ?_ (selectors fun _ _ same => by cases same)
      unfold halUpdateCurrentState
      cases s.currentTask <;> rfl
  | boot => exact .switch rfl (.refl s) none_gone rfl
  | create name vmem => exact .stay rfl (.create scheduled name vmem) none_gone rfl
  | setKernelMode task => exact .stay rfl (.setKernelMode scheduled task) none_gone rfl
  | run task code =>
      rw [handle]
      rcases taskRun_cases kalloc s task code (Q := fun _ => True) trivial (fun _ => trivial)
        (fun _ _ _ => trivial) with ⟨k, -, failed⟩ | ⟨t, k, stack, -, rfl, -, -, done⟩
      · have same : Drops none s (taskRun kalloc task code s).2 := by
          rw [failed]
          exact ⟨rfl, fun _ _ => rfl⟩
        refine .stay rfl same none_gone ?_
        cases task with
        | none => rfl
        | some t =>
            unfold note
            rw [enter, failed]
            rfl
      · unfold note
        rw [handle, enter, done]
        dsimp only
        rw [if_pos rfl, started_task, if_pos rfl]
        exact .start rfl k (by cases (s.task t).kernel <;> rfl)
  | destroy task => exact .stay rfl (.destroy task) (fun c isTask => by rw [isTask]) rfl

end BubackOS
