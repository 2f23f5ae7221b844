import BubackOS.Core.Task

/-!
# Interrupts and the syscall instruction

`interrupt_handler`, `handle_task_switch` and `pre_syscall` of `x86_64/lib/idt.c`,
`hal_update_current_state` of `x86_64/native_task.c` and `syscall_jumper` of
`x86_64/lib/idt.S`.  The handlers get the context that the entry code pushed on the kernel
stack.
-/

namespace BubackOS

/-- `INT_SYSTEM_CALL`. -/
def intSystemCall : Nat := 50

/-- Where a `native_task_t*` of the entry code points: the kernel stack, or the record of a task. -/
inductive ContextPointer where
  | stack
  | saved (t : Nat)
  deriving DecidableEq, Repr

/-- Write a context through a pointer; the kernel stack is given up with the handler. -/
def ContextPointer.store (pointer : ContextPointer) (context : NativeTask) (s : TaskSystem) : TaskSystem :=
  match pointer with
  | stack => s
  | saved t => s.modifyTask t fun task => { task with nativeTask := some context }

/-- `hal_update_current_state`: the pointer it returns, the context behind it and the system
after it.  The segment selectors are those of the record. -/
def halUpdateCurrentState (nativeTaskOnStack : NativeTask) (s : TaskSystem) :
    ContextPointer × NativeTask × TaskSystem :=
  match s.currentTask with
  | none => (.stack, nativeTaskOnStack, s)
  | some t =>
      let nativeTask := (s.task t).nativeTask.getD .zero
      let updated := { nativeTaskOnStack with cs := nativeTask.cs, ss := nativeTask.ss }
      (.saved t, updated, ContextPointer.store (.saved t) updated s)

/-- `handle_task_switch`. -/
def handleTaskSwitch (kalloc : Kalloc) (nativeTask : NativeTask) (s : TaskSystem) : Outcome × TaskSystem :=
  if s.currentTask.isSome then schedulerSwitchTask kalloc (halUpdateCurrentState nativeTask s).2.2
  else schedulerSwitchTask kalloc s

/-- `pre_syscall`, and `intel_switch_task` with the same pointer, as both callers go on. -/
def preSyscall (kalloc : Kalloc) (pointer : ContextPointer) (nativeTask : NativeTask) (s : TaskSystem) :
    Outcome × TaskSystem :=
  let ended := handleSyscall kalloc nativeTask.rdi s
  match ended.1 with
  | .switched outcome => (outcome, ended.2)
  | .result value =>
      let answered := { nativeTask with rax := value }
      (.resume answered, pointer.store answered ended.2)

/-- `interrupt_handler`. -/
def interruptHandler (kalloc : Kalloc) (nativeTask : NativeTask) (interrupt : Nat) (s : TaskSystem) :
    Outcome × TaskSystem :=
  if interrupt = 0x8 then handleTaskSwitch kalloc nativeTask s
  else if interrupt = 0xD then handleProtectionFault kalloc s
  else if interrupt = 0xE then handlePageFault kalloc s
  else if interrupt = 0x6 then handleInvalidOperation kalloc s
  else if interrupt = intSystemCall then preSyscall kalloc .stack nativeTask s
  else schedulerSwitchTask kalloc (halUpdateCurrentState nativeTask s).2.2

/-- The registers when the processor has executed `syscall`: `rcx` holds the address of the next
instruction and `r11` the flags. -/
def syscallEntry (context : NativeTask) : NativeTask :=
  { context with rcx := context.codeptr, r11 := context.eflags, origRax := 0 }

/-- What `syscall_jumper` pushes.  `rax` holds the user's stack pointer by then, and the selectors
are constants. -/
def syscallFrame (entry : NativeTask) : NativeTask :=
  { entry with
    ss := gdtSegment gdtEntryUserDs + gdtRingUser
    eflags := entry.r11
    cs := gdtSegment gdtEntryUserCs + gdtRingUser
    codeptr := entry.rcx
    origRax := 0
    rax := entry.stackptr }

/-- `syscall_jumper`. -/
def syscallJumper (kalloc : Kalloc) (entry : NativeTask) (s : TaskSystem) : Outcome × TaskSystem :=
  let updated := halUpdateCurrentState (syscallFrame entry) s
  preSyscall kalloc updated.1 updated.2.1 updated.2.2

end BubackOS
