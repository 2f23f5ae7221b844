import Mathlib.Algebra.Group.Nat.Defs
import Mathlib.Data.Nat.Basic

/-!
# Register contexts

`native_task_t` of `x86_64/native_task.h`, the segment selectors of `x86_64/gdt.h` and the
context `native_task_create` builds.
-/

namespace BubackOS

/-- `native_task_t`. -/
structure NativeTask where
  r15 : Nat
  r14 : Nat
  r13 : Nat
  r12 : Nat
  rbp : Nat
  rbx : Nat
  r11 : Nat
  r10 : Nat
  r9 : Nat
  r8 : Nat
  rax : Nat
  rcx : Nat
  rdx : Nat
  rsi : Nat
  rdi : Nat
  origRax : Nat
  codeptr : Nat
  cs : Nat
  eflags : Nat
  stackptr : Nat
  ss : Nat
  deriving DecidableEq, Repr

/-- `GDT_SEGMENT(index)`. -/
def gdtSegment (index : Nat) : Nat := index * 16

/-- `GDT_RING_SYSTEM` and `GDT_RING_USER`. -/
def gdtRingSystem : Nat := 0

def gdtRingUser : Nat := 3

def gdtEntryKernelCs : Nat := 1

def gdtEntryKernelDs : Nat := 2

def gdtEntryUserCs : Nat := 3

def gdtEntryUserDs : Nat := 4

/-- `INITIAL_EFLAGS`: bit 1 is always on, bit 9 enables interrupts. -/
def initialEflags : Nat := 2 ^ 1 + 2 ^ 9

namespace NativeTask

/-- A freshly allocated, hence zeroed, record. -/
def zero : NativeTask where
  r15 := 0
  r14 := 0
  r13 := 0
  r12 := 0
  rbp := 0
  rbx := 0
  r11 := 0
  r10 := 0
  r9 := 0
  r8 := 0
  rax := 0
  rcx := 0
  rdx := 0
  rsi := 0
  rdi := 0
  origRax := 0
  codeptr := 0
  cs := 0
  eflags := 0
  stackptr := 0
  ss := 0

/-- The context of a task that never ran, as `native_task_create` fills it. -/
def initial (code stack : Nat) (permissionMode : Bool) (userdata : Nat) : NativeTask :=
  { zero with
    rbp := stack
    stackptr := stack
    codeptr := code
    eflags := initialEflags
    cs :=
      if permissionMode then gdtSegment gdtEntryKernelCs + gdtRingSystem
      else gdtSegment gdtEntryUserCs + gdtRingUser
    ss :=
      if permissionMode then gdtSegment gdtEntryKernelDs + gdtRingSystem
      else gdtSegment gdtEntryUserDs + gdtRingUser
    rdi := userdata }

end NativeTask

end BubackOS
