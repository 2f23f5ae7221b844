import BubackOS.Core.Events

/-!
# The ring a task runs in

`task_set_kernel_mode` works on tasks that were not started.  Whatever the order of the
events, a task is always resumed with the selectors of the mode it was started in, and so a
user task never in ring 0.
-/

namespace BubackOS

open Library TaskSystem

variable {kalloc : Kalloc} {l l' : Ledger} {s s' : TaskSystem} {event : KernelEvent} {t : Nat}

/-- Scheduled tasks are noted with the selectors of their mode. -/
def Ringed (l : Ledger) (s : TaskSystem) : Prop :=
  ∀ t, s.dispatcher.Placed t → l.selectors t = ringSelectors (s.task t).kernel

/-- What is scheduled was scheduled before, in the same mode. -/
theorem Drops.ringed {gone : Option Nat} (drops : Drops gone s s') (exclusive : s.dispatcher.Exclusive)
    (ringed : Ringed l s) (selectors : l'.selectors = l.selectors) : Ringed l' s' := by
  intro t placed
  have before : s.dispatcher.Placed t := by
    rw [drops.dispatcher] at placed
    cases gone with
    | none => exact placed
    | some c => exact (exclusive.withdraw_placed.mp placed).1
  rw [selectors, drops.mode t before]
  exact ringed t before

theorem Effect.ringed (effect : Effect kalloc l s event l' s') (exclusive : s.dispatcher.Exclusive)
    (ringed : Ringed l s) : Ringed l' s' := by
  cases effect with
  | stay _ drops _ selectors => exact drops.ringed exclusive ringed selectors
  | switch _ drops _ selectors =>
      intro t placed
      rw [schedulerSwitchTask_dispatcher] at placed
      rw [task_of_tasks schedulerSwitchTask_tasks]
      exact drops.ringed exclusive ringed selectors t ((drops.exclusive exclusive).switch_placed placed)
  | @start t context _ k mode =>
      intro u placed
      rw [started_dispatcher] at placed
      rw [started_task]
      by_cases same : u = t
      · subst same
        rw [if_pos rfl, ← mode]
        simp [Ledger.build]
      · rw [if_neg same]
        simp only [Ledger.build, Ledger.enter, Function.update_of_ne same]
        exact ringed u (placed.imp id fun waits => (Dispatcher.mem_enroll_queue waits).resolve_right same)

theorem KernelRun.ringed (run : KernelRun BubackOS.kalloc l s) : Ringed l s := by
  induction run with
  | boot k l =>
      rintro t (running | waits)
      · cases running
      · have listed : t ∈ (linkedlistCreate BubackOS.kalloc k).1.items := waits
        rw [linkedlistCreate_items] at listed
        cases listed
  | step reached event _ ih =>
      have scheduled := (reached.inOrder kalloc_sameRoots).1.scheduled
      exact (event.effect scheduled).ringed scheduled.exclusive ih

/-- In every run of events, whenever the kernel resumes a task, it does so with the selectors of the
task's mode: a task that was not put into kernel mode before it was started runs in the user ring. -/
theorem resumed_in_own_ring (run : KernelRun BubackOS.kalloc l s) (event : KernelEvent)
    (genuine : event.Genuine l s) {context : NativeTask}
    (resumed : (event.handle BubackOS.kalloc s).1 = some (.resume context))
    (running : (event.handle BubackOS.kalloc s).2.currentTask = some t) :
    (context.cs, context.ss) = ringSelectors ((event.handle BubackOS.kalloc s).2.task t).kernel := by
  obtain ⟨order, loaded⟩ := run.inOrder kalloc_sameRoots
  have noted := (event.handle_inOrder kalloc_sameRoots order loaded genuine).2.2 context t resumed running
  rw [noted, ← (run.step event genuine).ringed t (Or.inl running)]
  rfl

/-- A user task that logs something goes on in ring 3. -/
theorem resumed_in_own_ring_sampleRunning : ∃ context, (KernelEvent.handle BubackOS.kalloc sampleRunning
    (.syscall { NativeTask.zero with rdi := 2 })).1 = some (.resume context) ∧
      (context.cs, context.ss) = ringSelectors false := by
  obtain ⟨l, run⟩ := sampleRunning_run
  obtain ⟨event, isEvent⟩ : ∃ event, event = KernelEvent.syscall { NativeTask.zero with rdi := 2 } := ⟨_, rfl⟩
  have facts : (event.handle BubackOS.kalloc sampleRunning).1 =
      some (.resume { NativeTask.zero with rdi := 2, cs := 51, ss := 67 }) ∧
      (event.handle BubackOS.kalloc sampleRunning).2.currentTask = some 0 ∧
      ((event.handle BubackOS.kalloc sampleRunning).2.task 0).kernel = false := by
    rw [isEvent]
    decide +kernel
  have ring := resumed_in_own_ring run event (isEvent ▸ trivial) facts.1 facts.2.1
  exact ⟨_, isEvent ▸ facts.1, ring.trans (by rw [facts.2.2])⟩

end BubackOS
