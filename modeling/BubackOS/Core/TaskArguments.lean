import BubackOS.Core.Task
import BubackOS.Library.Writes

/-!
# The arguments of a task

`copy_arguments_to_task` and `task_set_arguments` of `core/task/services.c`.  The copy
stores through physical addresses that it looks up once for the pointer array and once for
the strings, and then advances; beside each store the model notes the virtual address the
task is to find the bytes at.  An argument is the byte string behind its pointer.
-/

namespace BubackOS

open Library

/-- One store: where the task is to find the bytes, and the pointer they go through. -/
structure Placement where
  vaddr : Nat
  pointer : Nat
  bytes : List UInt8
  deriving DecidableEq, Repr

namespace Placement

/-- The write as the processor makes it. -/
def stored (p : Placement) : Write := { addr := p.pointer, bytes := p.bytes }

/-- The write as the task is to see it. -/
def intended (p : Placement) : Write := { addr := p.vaddr, bytes := p.bytes }

end Placement

/-- `sizeof(long)`. -/
def sizeofLong : Nat := 8

/-- `sizeof(task_userdata_t)`. -/
def sizeofTaskUserdata : Nat := 16

/-- The loop of `copy_arguments_to_task` from the argument `i` on: the positions behind the last
copy, or `none` when an argument does not fit. -/
def copyLoop (stack stackSize argumentsPtrPhys : Nat) :
    Nat → List (List UInt8) → Nat → Nat → Option (Nat × Nat) × List Placement
  | _, [], argumentsData, argumentsDataPhys => (some (argumentsData, argumentsDataPhys), [])
  | i, argument :: rest, argumentsData, argumentsDataPhys =>
      if wrap (argumentsData + argument.length) > wrapSub (wrap (stack + stackSize)) sizeofTaskUserdata then
        (none, [])
      else
        let copied := copyLoop stack stackSize argumentsPtrPhys (i + 1) rest
          (wrap (argumentsData + argument.length)) (wrap (argumentsDataPhys + argument.length))
        (copied.1,
          { vaddr := argumentsData, pointer := argumentsDataPhys, bytes := argument } ::
          { vaddr := wrap (stack + sizeofLong * i)
            pointer := wrap (argumentsPtrPhys + sizeofLong * i)
            bytes := wordBytes argumentsData } :: copied.2)

/-- The result of `copy_arguments_to_task` and the stores it makes. -/
def layOutArguments (k : Kernel) (v stack stackSize : Nat) (arguments : List (List UInt8)) :
    Nat × List Placement :=
  let argumentsPtrPhys := vmemGetPhysicalAddress k v stack
  if argumentsPtrPhys = 0 then (0, [])
  else
    let argumentsData := wrap (stack + sizeofLong * (arguments.length + 1))
    let argumentsDataPhys := vmemGetPhysicalAddress k v argumentsData
    if argumentsDataPhys = 0 then (0, [])
    else
      let copied := copyLoop stack stackSize argumentsPtrPhys 0 arguments argumentsData argumentsDataPhys
      match copied.1 with
      | none => (0, copied.2)
      | some (userdata, userdataPhys) =>
          (userdata, copied.2 ++
            [{ vaddr := userdata
               pointer := userdataPhys
               bytes := wordBytes arguments.length ++ wordBytes stack }])

/-- `copy_arguments_to_task`. -/
def copyArgumentsToTask (v stack stackSize : Nat) (arguments : List (List UInt8)) (k : Kernel) : Nat × Kernel :=
  let laidOut := layOutArguments k v stack stackSize arguments
  (laidOut.1, { k with mem := k.mem.writeAll (laidOut.2.map Placement.stored) })

/-- `task_set_arguments`; the result of the copy is stored whatever it is. -/
def taskSetArguments (kalloc : Kalloc) (task : Option Nat) (arguments : List (List UInt8)) (s : TaskSystem) :
    Bool × TaskSystem :=
  match task with
  | none => (false, s)
  | some t =>
      if (s.task t).status ≠ .created ∨ (s.task t).userdata ≠ 0 then (false, s)
      else
        let region := vmemRegionCreate kalloc (s.task t).memoryHandler (some "task-argument") 0
          taskDefaultStackSize true true true s.kernel
        match region.1, (s.task t).memoryHandler with
        | some r, some v =>
            let attached := vmemAttach kalloc region.2.core.kernelVmem (some r) region.2
            if attached.1 then
              let copied := copyArgumentsToTask v (attached.2.region r).start (attached.2.region r).size
                arguments attached.2
              (true, (s.setKernel copied.2).modifyTask t fun task => { task with userdata := copied.1 })
            else (false, s.setKernel attached.2)
        | _, _ => (false, s.setKernel region.2)

/-! ## The layout -/

variable {k : Kernel} {v stack stackSize : Nat} {arguments : List (List UInt8)}

/-- The bytes of all arguments. -/
def totalSize (arguments : List (List UInt8)) : Nat := (arguments.map List.length).sum

@[simp] theorem totalSize_cons (argument : List UInt8) (rest : List (List UInt8)) :
    totalSize (argument :: rest) = argument.length + totalSize rest := by simp [totalSize]

/-- A point of the loop: `count` arguments of `total` bytes are left, from the argument `i` on. -/
structure CopyPoint (stack stackSize i count data total : Nat) : Prop where
  words : stack + stackSize < 2 ^ 64
  trailer : sizeofTaskUserdata ≤ stackSize
  slots : stack + sizeofLong * (i + count + 1) ≤ data
  dataWords : data + total < 2 ^ 64

namespace CopyPoint

variable {i count data total size : Nat}

theorem limit (point : CopyPoint stack stackSize i count data total) :
    wrapSub (wrap (stack + stackSize)) sizeofTaskUserdata = stack + stackSize - sizeofTaskUserdata := by
  have trailer := point.trailer
  rw [wrap_of_lt point.words, wrapSub_of_le (by omega) point.words]

theorem next (point : CopyPoint stack stackSize i (count + 1) data (size + total)) :
    CopyPoint stack stackSize (i + 1) count (data + size) total where
  words := point.words
  trailer := point.trailer
  slots := by
    have slots := point.slots
    have same : i + 1 + count + 1 = i + (count + 1) + 1 := by omega
    rw [same]
    omega
  dataWords := by
    have words := point.dataWords
    omega

theorem data_lt (point : CopyPoint stack stackSize i (count + 1) data (size + total)) : data + size < 2 ^ 64 := by
  have words := point.dataWords
  omega

theorem slot_lt (point : CopyPoint stack stackSize i (count + 1) data total) :
    stack + sizeofLong * i + sizeofLong < data ∧ stack + sizeofLong * i < 2 ^ 64 := by
  have slots := point.slots
  have words := point.dataWords
  unfold sizeofLong at slots ⊢
  omega

end CopyPoint

variable {i data total : Nat}

/-- One round of the loop whose argument fits. -/
theorem copyLoop_cons {ptrs dataPhys : Nat} {argument : List UInt8} {rest : List (List UInt8)}
    (point : CopyPoint stack stackSize i (rest.length + 1) data (argument.length + totalSize rest)) :
    copyLoop stack stackSize ptrs i (argument :: rest) data dataPhys =
      if stack + stackSize - sizeofTaskUserdata < data + argument.length then (none, [])
      else
        ((copyLoop stack stackSize ptrs (i + 1) rest (data + argument.length)
            (wrap (dataPhys + argument.length))).1,
          { vaddr := data, pointer := dataPhys, bytes := argument } ::
          { vaddr := stack + sizeofLong * i, pointer := wrap (ptrs + sizeofLong * i), bytes := wordBytes data } ::
          (copyLoop stack stackSize ptrs (i + 1) rest (data + argument.length)
            (wrap (dataPhys + argument.length))).2) := by
  rw [copyLoop, point.limit, wrap_of_lt point.data_lt, wrap_of_lt point.slot_lt.2]

/-- The ranges the loop lays out: copies from `data` on that end before the room for the trailer,
slots from the slot `i` on, and no two overlap. -/
theorem copyLoop_layout (ptrs : Nat) (arguments : List (List UInt8)) : ∀ (i data dataPhys : Nat),
    CopyPoint stack stackSize i arguments.length data (totalSize arguments) →
    (copyLoop stack stackSize ptrs i arguments data dataPhys).2.Pairwise
        (fun p q => p.intended.Apart q.intended) ∧
      ∀ p ∈ (copyLoop stack stackSize ptrs i arguments data dataPhys).2,
        (p.intended.Within data (data + totalSize arguments) ∧
          p.intended.stop ≤ stack + stackSize - sizeofTaskUserdata) ∨
          (p.intended.Within (stack + sizeofLong * i) (stack + sizeofLong * (i + arguments.length)) ∧
            data ≤ stack + stackSize - sizeofTaskUserdata) := by
  induction arguments with
  | nil => exact fun i data dataPhys _ => ⟨List.Pairwise.nil, fun p member => absurd member List.not_mem_nil⟩
  | cons argument rest ih =>
      intro i data dataPhys point
      rw [totalSize_cons] at point
      rw [copyLoop_cons point]
      split
      · exact ⟨List.Pairwise.nil, fun p member => absurd member List.not_mem_nil⟩
      · rename_i fits
        obtain ⟨apart, within⟩ := ih (i + 1) (data + argument.length) (wrap (dataPhys + argument.length)) point.next
        have slots := point.slots
        simp only [sizeofLong, List.length_cons, totalSize_cons] at slots within ⊢
        refine ⟨List.pairwise_cons.mpr ⟨?_, List.pairwise_cons.mpr ⟨?_, apart⟩⟩, ?_⟩
        · -- the copy lies in front of the later copies and behind all slots
          intro p member
          rcases List.mem_cons.mp member with rfl | later
          · simp only [Write.Apart, Write.stop, Placement.intended, wordBytes_length]
            omega
          · have placed := within p later
            simp only [Write.Within, Write.Apart, Write.stop, Placement.intended] at placed ⊢
            omega
        · intro p later
          have placed := within p later
          simp only [Write.Within, Write.Apart, Write.stop, Placement.intended, wordBytes_length] at placed ⊢
          omega
        · intro p member
          rcases List.mem_cons.mp member with rfl | member
          · left
            simp only [Write.Within, Write.stop, Placement.intended]
            omega
          · rcases List.mem_cons.mp member with rfl | later
            · right
              simp only [Write.Within, Write.stop, Placement.intended, wordBytes_length]
              omega
            · have placed := within p later
              simp only [Write.Within, Write.stop, Placement.intended] at placed ⊢
              omega

/-- The loop comes to its end exactly if the arguments end before the room for the trailer. -/
theorem copyLoop_result (ptrs : Nat) (arguments : List (List UInt8)) : ∀ (i data dataPhys : Nat),
    CopyPoint stack stackSize i arguments.length data (totalSize arguments) →
    (copyLoop stack stackSize ptrs i arguments data dataPhys).1 =
      if arguments ≠ [] ∧ stack + stackSize - sizeofTaskUserdata < data + totalSize arguments then none
      else some (data + totalSize arguments, arguments.foldl (fun p argument => wrap (p + argument.length)) dataPhys) := by
  induction arguments with
  | nil => exact fun i data dataPhys _ => rfl
  | cons argument rest ih =>
      intro i data dataPhys point
      rw [totalSize_cons] at point
      rw [copyLoop_cons point, totalSize_cons]
      split
      · rename_i full
        rw [if_pos ⟨List.cons_ne_nil _ _, by omega⟩]
      · rename_i fits
        dsimp only
        rw [ih (i + 1) _ _ point.next, List.foldl_cons, Nat.add_assoc]
        have iff : (rest ≠ [] ∧ stack + stackSize - sizeofTaskUserdata < data + (argument.length + totalSize rest)) ↔
            (argument :: rest ≠ [] ∧
              stack + stackSize - sizeofTaskUserdata < data + (argument.length + totalSize rest)) := by
          refine ⟨fun overflows => ⟨List.cons_ne_nil _ _, overflows.2⟩, fun overflows => ⟨?_, overflows.2⟩⟩
          rintro rfl
          have total := overflows.2
          simp [totalSize] at total
          omega
        simp only [iff]

/-- The layout of the arguments, in words. -/
structure Layable (stack stackSize : Nat) (arguments : List (List UInt8)) : Prop where
  words : stack + stackSize < 2 ^ 64
  enough : 24 ≤ stackSize
  ending : stack + sizeofLong * (arguments.length + 1) + totalSize arguments < 2 ^ 64

/-- The address of the first copy. -/
def argumentsStart (stack : Nat) (arguments : List (List UInt8)) : Nat :=
  stack + sizeofLong * (arguments.length + 1)

theorem Layable.point (layable : Layable stack stackSize arguments) :
    CopyPoint stack stackSize 0 arguments.length (argumentsStart stack arguments) (totalSize arguments) where
  words := layable.words
  trailer := Nat.le_trans (by decide) layable.enough
  slots := by rw [Nat.zero_add, argumentsStart]
  dataWords := layable.ending

/-- Pointers, copies and trailer fit into the region. -/
def ArgumentsFit (stackSize : Nat) (arguments : List (List UInt8)) : Prop :=
  arguments = [] ∨ sizeofLong * (arguments.length + 1) + totalSize arguments + sizeofTaskUserdata ≤ stackSize

instance (stackSize : Nat) (arguments : List (List UInt8)) : Decidable (ArgumentsFit stackSize arguments) := by
  unfold ArgumentsFit
  infer_instance

theorem Layable.room (layable : Layable stack stackSize arguments) (fit : ArgumentsFit stackSize arguments) :
    sizeofLong * (arguments.length + 1) + totalSize arguments + sizeofTaskUserdata ≤ stackSize := by
  rcases fit with rfl | fit
  · exact layable.enough
  · exact fit

/-- The test of the last round. -/
theorem Layable.overflow_iff (layable : Layable stack stackSize arguments) :
    (arguments ≠ [] ∧ stack + stackSize - sizeofTaskUserdata <
      argumentsStart stack arguments + totalSize arguments) ↔ ¬ ArgumentsFit stackSize arguments := by
  have enough := layable.enough
  unfold ArgumentsFit argumentsStart sizeofTaskUserdata
  rw [not_or]
  refine and_congr_right fun _ => ?_
  omega

/-- The stores of the loop. -/
def copies (k : Kernel) (v stack stackSize : Nat) (arguments : List (List UInt8)) : List Placement :=
  (copyLoop stack stackSize (vmemGetPhysicalAddress k v stack) 0 arguments (argumentsStart stack arguments)
    (vmemGetPhysicalAddress k v (argumentsStart stack arguments))).2

/-- The address of the trailer behind the copies. -/
def trailerPointer (k : Kernel) (v stack : Nat) (arguments : List (List UInt8)) : Nat :=
  arguments.foldl (fun p argument => wrap (p + argument.length))
    (vmemGetPhysicalAddress k v (argumentsStart stack arguments))

/-- What the copy does, by the pages it finds and the room there is. -/
theorem layOutArguments_eq (layable : Layable stack stackSize arguments) :
    layOutArguments k v stack stackSize arguments =
      if vmemGetPhysicalAddress k v stack = 0 ∨ vmemGetPhysicalAddress k v (argumentsStart stack arguments) = 0 then
        (0, [])
      else if ArgumentsFit stackSize arguments then
        (argumentsStart stack arguments + totalSize arguments, copies k v stack stackSize arguments ++
          [{ vaddr := argumentsStart stack arguments + totalSize arguments
             pointer := trailerPointer k v stack arguments
             bytes := wordBytes arguments.length ++ wordBytes stack }])
      else (0, copies k v stack stackSize arguments) := by
  have point := layable.point
  have start : wrap (argumentsStart stack arguments) = argumentsStart stack arguments := by
    have words := point.dataWords
    exact wrap_of_lt (by omega)
  have result := copyLoop_result (vmemGetPhysicalAddress k v stack) arguments 0 _
    (vmemGetPhysicalAddress k v (argumentsStart stack arguments)) point
  have overflows := layable.overflow_iff
  unfold layOutArguments
  rw [← argumentsStart]
  dsimp only
  rw [start]
  by_cases pointers : vmemGetPhysicalAddress k v stack = 0
  · rw [if_pos pointers, if_pos (Or.inl pointers)]
  · rw [if_neg pointers]
    by_cases strings : vmemGetPhysicalAddress k v (argumentsStart stack arguments) = 0
    · rw [if_pos strings, if_pos (Or.inr strings)]
    · rw [if_neg strings, if_neg (not_or.mpr ⟨pointers, strings⟩)]
      by_cases fit : ArgumentsFit stackSize arguments
      · rw [if_pos fit, result, if_neg (by rw [overflows]; exact not_not.mpr fit)]
        rfl
      · rw [if_neg fit, result, if_pos (overflows.mpr fit)]
        rfl

/-- The stores of the loop are apart, behind the slots or among them, and end before the trailer. -/
theorem copies_layout (layable : Layable stack stackSize arguments) :
    (copies k v stack stackSize arguments).Pairwise (fun p q => p.intended.Apart q.intended) ∧
    ∀ p ∈ copies k v stack stackSize arguments,
      (p.intended.Within stack (stack + sizeofLong * arguments.length) ∨
        p.intended.Within (argumentsStart stack arguments) (argumentsStart stack arguments + totalSize arguments)) ∧
      p.intended.Within stack (stack + stackSize - sizeofTaskUserdata) := by
  obtain ⟨apart, within⟩ := copyLoop_layout (vmemGetPhysicalAddress k v stack) arguments 0 _
    (vmemGetPhysicalAddress k v (argumentsStart stack arguments)) layable.point
  refine ⟨apart, fun p member => ?_⟩
  have placed := within p member
  simp only [Write.Within, argumentsStart, sizeofLong] at placed ⊢
  omega

/-- All stores are apart and inside the region. -/
theorem layOutArguments_layout (k : Kernel) (v : Nat) (layable : Layable stack stackSize arguments) :
    (layOutArguments k v stack stackSize arguments).2.Pairwise (fun p q => p.intended.Apart q.intended) ∧
    ∀ p ∈ (layOutArguments k v stack stackSize arguments).2, p.intended.Within stack (stack + stackSize) := by
  obtain ⟨apart, within⟩ := copies_layout (k := k) (v := v) layable
  have inside : ∀ p ∈ copies k v stack stackSize arguments, p.intended.Within stack (stack + stackSize) :=
    fun p member => ⟨(within p member).2.1, Nat.le_trans (within p member).2.2 (Nat.sub_le _ _)⟩
  rw [layOutArguments_eq layable]
  split
  · exact ⟨List.Pairwise.nil, fun p member => absurd member List.not_mem_nil⟩
  · split
    · rename_i fit
      have room := layable.room fit
      simp only [argumentsStart, sizeofLong, sizeofTaskUserdata] at room within ⊢
      refine ⟨List.pairwise_append.mpr ⟨apart, List.pairwise_singleton _ _, ?_⟩, ?_⟩
      · intro p member q trailer
        have placed := within p member
        rw [List.mem_singleton.mp trailer]
        simp only [Write.Within, Write.Apart, Write.stop, Placement.intended] at placed ⊢
        omega
      · intro p member
        rcases List.mem_append.mp member with copied | trailer
        · exact inside p copied
        · rw [List.mem_singleton.mp trailer]
          simp only [Write.Within, Write.stop, Placement.intended, List.length_append, wordBytes_length]
          omega
    · exact ⟨apart, inside⟩

/-- The result is the address of the trailer if the pages are there and the layout fits, and else `0`. -/
theorem layOutArguments_result (layable : Layable stack stackSize arguments) :
    (layOutArguments k v stack stackSize arguments).1 =
      if vmemGetPhysicalAddress k v stack ≠ 0 ∧ vmemGetPhysicalAddress k v (argumentsStart stack arguments) ≠ 0 ∧
        ArgumentsFit stackSize arguments then argumentsStart stack arguments + totalSize arguments else 0 := by
  rw [layOutArguments_eq layable]
  split
  · rename_i missing
    rw [if_neg fun all => missing.elim all.1 all.2.1]
  · rename_i found
    split
    · rename_i fit
      rw [if_pos ⟨fun absent => found (Or.inl absent), fun absent => found (Or.inr absent), fit⟩]
    · rename_i overflows
      rw [if_neg fun all => overflows all.2.2]

/-- For any number of arguments of any sizes: the slots, the copies and the trailer that
`copy_arguments_to_task` writes are pairwise disjoint and lie in the region, and it returns `0`
whenever there is an argument and the whole layout does not fit. -/
theorem arguments_laid_out_apart (k : Kernel) (v : Nat) (enough : 24 ≤ stackSize)
    (words : stack + stackSize + 8 * (arguments.length + 1) + totalSize arguments < 2 ^ 64) :
    (layOutArguments k v stack stackSize arguments).2.Pairwise (fun p q => p.intended.Apart q.intended) ∧
    (∀ p ∈ (layOutArguments k v stack stackSize arguments).2, p.intended.Within stack (stack + stackSize)) ∧
    (1 ≤ arguments.length → stackSize < 8 * (arguments.length + 1) + totalSize arguments + 16 →
      (copyArgumentsToTask v stack stackSize arguments k).1 = 0) := by
  have layable : Layable stack stackSize arguments := ⟨by omega, enough, by unfold sizeofLong; omega⟩
  obtain ⟨apart, inside⟩ := layOutArguments_layout k v layable
  refine ⟨apart, inside, fun some overflows => ?_⟩
  have full : ¬ ArgumentsFit stackSize arguments := by
    rintro (rfl | fit)
    · exact absurd some (by simp)
    · unfold sizeofLong sizeofTaskUserdata at fit
      omega
  rw [copyArgumentsToTask, layOutArguments_result layable, if_neg fun all => full all.2.2]

/-- An address space with two pages at one megabyte. -/
def pagePair (second : Nat) : Kernel :=
  sampleKernel.newVmem { Vmem.zero with
    map := some [{ virtualAddr := 0x100000, physicalAddr := 0x4000000, region := 0 },
      { virtualAddr := 0x101000, physicalAddr := second, region := 0 }] }

theorem arguments_laid_out_apart_pagePair :
    (layOutArguments (pagePair 0x4001000) 0 0x100000 0x2000 [[65, 0], [66, 67, 0]]).1 = 0x10001d ∧
    (layOutArguments (pagePair 0x4001000) 0 0x100000 0x2000 [[65, 0], [66, 67, 0]]).2.Pairwise
      (fun p q => p.intended.Apart q.intended) :=
  ⟨by decide +kernel, (arguments_laid_out_apart (pagePair 0x4001000) 0 (by decide) (by decide)).1⟩

end BubackOS
