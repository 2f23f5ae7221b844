import BubackOS.Core.Task

/-!
# Registering system calls

`register_syscall` of `syscall/services.c` and `syscall_registering` of `syscall/syscalls.c`.
-/

namespace BubackOS

variable {H : Type}

/-- `register_syscall`; the handler may be `NULL`, which leaves the slot free. -/
def registerSyscall (syscallNumber : Nat) (handler : Option H) (vector : Nat → Option H) : Bool × (Nat → Option H) :=
  if syscallNumber = 0 ∨ syscallNumber ≥ syscallMaxNumber then (false, vector)
  else if (vector syscallNumber).isSome then (false, vector)
  else (true, fun i => if i = syscallNumber then handler else vector i)

/-- The table after some calls. -/
def registerAll : List (Nat × Option H) → (Nat → Option H) → Nat → Option H
  | [], vector => vector
  | call :: rest, vector => registerAll rest (registerSyscall call.1 call.2 vector).2

/-- `syscall_registering` with its two handlers; `&&` does not call again after a failure. -/
def syscallRegistering (taskExit logging : H) (vector : Nat → Option H) : Bool × (Nat → Option H) :=
  let exit := registerSyscall 1 (some taskExit) vector
  if exit.1 then registerSyscall 2 (some logging) exit.2 else exit

/-- The handler that `handle_syscall` calls; without one it answers `-1`. -/
def syscallHandler (vector : Nat → Option H) (syscallNumber : Nat) : Option H :=
  if syscallNumber = 0 ∨ syscallNumber ≥ syscallMaxNumber then none else vector syscallNumber

/-- The first handler that calls offer for a number. -/
def offered (n : Nat) : List (Nat × Option H) → Option H
  | [] => none
  | call :: rest => if call.1 = n then call.2.or (offered n rest) else offered n rest

theorem registerSyscall_slot {n : Nat} (inRange : ¬ (n = 0 ∨ n ≥ syscallMaxNumber)) (call : Nat × Option H)
    (vector : Nat → Option H) :
    (registerSyscall call.1 call.2 vector).2 n = if call.1 = n then (vector n).or call.2 else vector n := by
  unfold registerSyscall
  by_cases own : call.1 = n
  · rw [own, if_neg inRange, if_pos rfl]
    cases known : vector n with
    | none => exact if_pos rfl
    | some => exact known
  · rw [if_neg own]
    split
    · rfl
    · split
      · rfl
      · exact if_neg (Ne.symm own)

/-- A slot keeps its handler, and a free one gets the first that is offered. -/
theorem registerAll_slot {n : Nat} (inRange : ¬ (n = 0 ∨ n ≥ syscallMaxNumber)) :
    ∀ (calls : List (Nat × Option H)) (vector : Nat → Option H),
      registerAll calls vector n = (vector n).or (offered n calls)
  | [], _ => Option.or_none.symm
  | call :: rest, vector => by
      rw [registerAll, registerAll_slot inRange rest, registerSyscall_slot inRange, offered]
      split
      · exact Option.or_assoc
      · rfl

theorem syscallRegistering_start (taskExit logging : H) : syscallRegistering taskExit logging (fun _ => none) =
    (true, fun n => if n = 2 then some logging else if n = 1 then some taskExit else none) := rfl

/-- A slot of the kernel, after more registrations. -/
theorem registerAll_start {n : Nat} (inRange : ¬ (n = 0 ∨ n ≥ syscallMaxNumber)) (taskExit logging : H)
    (calls : List (Nat × Option H)) :
    registerAll calls (syscallRegistering taskExit logging fun _ => none).2 n =
      if n = 2 then some logging else if n = 1 then some taskExit else offered n calls := by
  rw [registerAll_slot inRange, syscallRegistering_start]
  dsimp only
  split
  · rfl
  · split
    · rfl
    · exact Option.none_or

/-- From the start on, whatever is registered afterwards: the kernel's own registrations succeed and stay; any other
number in range is handled by the first handler registered for it that is not `NULL`, and no other number is; a
registration succeeds exactly if its number is in range and was given no handler before.  The kernel's own
registrations are the table of the model. -/
theorem first_registration_stands (taskExit logging : H) (calls : List (Nat × Option H)) (number : Nat)
    (handler : Option H) :
    (syscallRegistering taskExit logging fun _ => none).1 = true ∧
      (∀ n, syscallHandler (registerAll calls (syscallRegistering taskExit logging fun _ => none).2) n =
        if n = 0 ∨ n ≥ syscallMaxNumber then none
        else if n = 2 then some logging else if n = 1 then some taskExit else offered n calls) ∧
      ((registerSyscall number handler (registerAll calls (syscallRegistering taskExit logging fun _ => none).2)).1 =
          true ↔ 2 < number ∧ number < syscallMaxNumber ∧ offered number calls = none) ∧
      (syscallRegistering Syscall.taskExit Syscall.logging fun _ => none).2 = syscallVector := by
  refine ⟨rfl, fun n => ?_, ?_, ?_⟩
  · unfold syscallHandler
    split
    · rfl
    · exact registerAll_start (by assumption) taskExit logging calls
  · unfold registerSyscall
    by_cases outside : number = 0 ∨ number ≥ syscallMaxNumber
    · rw [if_pos outside]
      exact iff_of_false Bool.false_ne_true (by omega)
    · rw [if_neg outside, registerAll_start outside]
      by_cases logs : number = 2
      · rw [if_pos logs]
        exact iff_of_false Bool.false_ne_true (by omega)
      by_cases exits : number = 1
      · rw [if_neg logs, if_pos exits]
        exact iff_of_false Bool.false_ne_true (by omega)
      rw [if_neg logs, if_neg exits]
      cases offered number calls with
      | none => exact iff_of_true rfl ⟨by omega, by omega, rfl⟩
      | some => exact iff_of_false Bool.false_ne_true fun free => by cases free.2.2
  · funext n
    rw [syscallRegistering_start]
    unfold syscallVector
    split
    · rfl
    · rfl
    · rename_i exits logs
      exact (if_neg logs).trans (if_neg exits)

end BubackOS
