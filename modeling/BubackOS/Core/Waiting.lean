import BubackOS.Core.Events

/-!
# Bounded waiting

The ready queue is served in its order: tasks join at its end, and whatever else happens, a
switch takes its first task.  A task that waits is overtaken by nobody, and runs after as many
switches as there are tasks before it, and one more.
-/

namespace BubackOS

open Library TaskSystem

variable {kalloc : Kalloc} {l l' : Ledger} {s s' : TaskSystem} {event : KernelEvent} {t ahead : Nat}

/-- The task runs next, or has one less before it. -/
theorem schedulerSwitchTask_waits (exclusive : s.dispatcher.Exclusive) (waits : s.dispatcher.Waits ahead t) :
    (schedulerSwitchTask kalloc s).2.currentTask = some t ∨
      ∃ left, ahead = left + 1 ∧ (schedulerSwitchTask kalloc s).2.dispatcher.Waits left t := by
  have served := exclusive.switch_waits (s.nodeServed kalloc) waits
  rw [← schedulerSwitchTask_dispatcher] at served
  exact served

theorem Drops.waits {gone : Option Nat} (drops : Drops gone s s') (waits : s.dispatcher.Waits ahead t)
    (spared : ∀ c ∈ gone, c ≠ t) : s'.dispatcher.Waits ahead t := by
  rw [drops.dispatcher]
  cases gone with
  | none => exact waits
  | some c => exact waits.withdraw (spared c rfl)

/-- Only its own destruction takes a waiting task out of its place. -/
theorem Effect.waits (effect : Effect kalloc l s event l' s') (exclusive : s.dispatcher.Exclusive)
    (spared : event ≠ .destroy (some t)) (waits : s.dispatcher.Waits ahead t) : s'.currentTask = some t ∨
      ∃ left, ahead = left + (if event.switches then 1 else 0) ∧ s'.dispatcher.Waits left t := by
  cases effect with
  | stay stays drops asked =>
      rw [stays]
      exact Or.inr ⟨ahead, rfl, drops.waits waits fun c isGone same => spared (same ▸ asked c isGone)⟩
  | start stays =>
      rw [stays, started_dispatcher]
      exact Or.inr ⟨ahead, rfl, waits.enroll⟩
  | switch switches drops current =>
      have queued : t ∈ s.dispatcher.queue := by
        obtain ⟨before, after, queue, -⟩ := waits
        rw [queue]
        exact List.mem_append_right _ List.mem_cons_self
      rw [switches]
      exact schedulerSwitchTask_waits (drops.exclusive exclusive) (drops.waits waits fun c isGone same =>
        exclusive.apart t queued (same ▸ current c isGone))

/-- A sequence of events. -/
inductive KernelTrace (kalloc : Kalloc) : Ledger → TaskSystem → List KernelEvent → Ledger → TaskSystem → Prop where
  | refl (l : Ledger) (s : TaskSystem) : KernelTrace kalloc l s [] l s
  | step {l l' : Ledger} {s s' : TaskSystem} {event : KernelEvent} {events : List KernelEvent}
      (genuine : event.Genuine l s)
      (rest : KernelTrace kalloc (event.note kalloc s l) (event.handle kalloc s).2 events l' s') :
      KernelTrace kalloc l s (event :: events) l' s'

theorem KernelTrace.waits {events : List KernelEvent} (trace : KernelTrace BubackOS.kalloc l s events l' s') :
    ∀ {ahead}, KernelRun BubackOS.kalloc l s → s.dispatcher.Waits ahead t → .destroy (some t) ∉ events →
      ahead < events.countP KernelEvent.switches →
      ∃ first rest l₁ s₁, events = first ++ rest ∧ KernelTrace BubackOS.kalloc l s first l₁ s₁ ∧
        s₁.currentTask = some t := by
  induction trace with
  | refl => exact fun _ _ _ none => absurd none (Nat.not_lt_zero _)
  | @step l _ s _ event events genuine _ ih =>
      intro ahead run waits spared enough
      have first : event ≠ .destroy (some t) := fun same => spared (same ▸ List.mem_cons_self)
      have scheduled := (run.inOrder kalloc_sameRoots).1.scheduled
      rcases (event.effect scheduled (l := l)).waits scheduled.exclusive first waits with runs | ⟨left, split, waits⟩
      · exact ⟨[event], events, _, _, rfl, .step genuine (.refl _ _), runs⟩
      · rw [List.countP_cons, split] at enough
        obtain ⟨first, rest, l₁, s₁, rfl, path, runs⟩ := ih (run.step event genuine) waits
          (fun member => spared (List.mem_cons_of_mem event member)) (by omega)
        exact ⟨event :: first, rest, l₁, s₁, rfl, .step genuine path, runs⟩

/-- From every state of every run, whatever the interrupts, system calls and services that follow and
whatever allocations fail: a task at a place of the ready queue that is not destroyed runs at some
moment of every sequence of events with more switches than there are tasks before it. -/
theorem waiting_task_runs {events : List KernelEvent} (run : KernelRun BubackOS.kalloc l s)
    (waits : s.queue[ahead]? = some t) (trace : KernelTrace BubackOS.kalloc l s events l' s')
    (spared : .destroy (some t) ∉ events) (enough : ahead < events.countP KernelEvent.switches) :
    ∃ first rest l₁ s₁, events = first ++ rest ∧ KernelTrace BubackOS.kalloc l s first l₁ s₁ ∧
      s₁.currentTask = some t := by
  obtain ⟨inside, isTask⟩ := List.getElem?_eq_some_iff.mp waits
  have queue : s.dispatcher.queue = s.queue.take ahead ++ t :: s.queue.drop (ahead + 1) := by
    rw [← isTask, List.getElem_cons_drop, List.take_append_drop]
    rfl
  exact trace.waits run ⟨_, _, queue, List.length_take_le ahead _⟩ spared enough

/-- Two tasks that were created and started. -/
def waitingPair : TaskSystem :=
  ((KernelEvent.run (some 1) 0x500000).handle BubackOS.kalloc ((KernelEvent.run (some 0) 0x400000).handle BubackOS.kalloc
    ((KernelEvent.create "second" (some 0)).handle BubackOS.kalloc ((KernelEvent.create "first" (some 0)).handle
      BubackOS.kalloc (taskServiceInitialize BubackOS.kalloc (schedulerInitialise BubackOS.kalloc
        (TaskSystem.start (vmemStart BubackOS.kalloc sampleKernel))).2)).2).2).2).2

theorem waitingPair_run : ∃ l, KernelRun BubackOS.kalloc l waitingPair := by
  refine ⟨_, .step (.step (.step (.step (.boot (vmemStart BubackOS.kalloc sampleKernel) ⟨fun _ => .zero, fun _ => none,
    fun _ => (0, 0), (0, 0)⟩) (.create "first" (some 0)) ?_) (.create "second" (some 0)) ?_) (.run (some 0) 0x400000) ?_)
    (.run (some 1) 0x500000) ?_⟩ <;>
  · rintro _ ⟨⟩
    decide +kernel

/-- The switch at the end of the boot lets the first one run, and the timer the second. -/
theorem waiting_task_runs_waitingPair : waitingPair.queue = [0, 1] ∧ ∃ l first rest l₁ s₁,
    [KernelEvent.boot, .interrupt 8 { NativeTask.zero with cs := 51, ss := 67 }] = first ++ rest ∧
      KernelTrace BubackOS.kalloc l waitingPair first l₁ s₁ ∧ s₁.currentTask = some 1 := by
  obtain ⟨l, run⟩ := waitingPair_run
  obtain ⟨queue, idle, resumed, code, stack⟩ : waitingPair.queue = [0, 1] ∧ waitingPair.currentTask = none ∧
      (KernelEvent.boot.handle BubackOS.kalloc waitingPair).1 =
        some (.resume ((waitingPair.task 0).nativeTask.getD .zero)) ∧
      ((waitingPair.task 0).nativeTask.getD .zero).cs = 51 ∧ ((waitingPair.task 0).nativeTask.getD .zero).ss = 67 := by
    decide +kernel
  generalize waitingPair = s at run queue idle resumed code stack ⊢
  obtain ⟨l', s', trace⟩ : ∃ l' s', KernelTrace BubackOS.kalloc l s
      [KernelEvent.boot, .interrupt 8 { NativeTask.zero with cs := 51, ss := 67 }] l' s' := by
    refine ⟨_, _, .step idle (.step (fun _ => ?_) (.refl _ _))⟩
    unfold KernelEvent.note
    rw [resumed]
    exact (Prod.ext code stack).symm
  have second : s.queue[1]? = some 1 := by
    rw [queue]
    rfl
  exact ⟨queue, l, waiting_task_runs run second trace (by simp) (by decide)⟩

end BubackOS
