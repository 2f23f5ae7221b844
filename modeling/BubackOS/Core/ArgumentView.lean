import BubackOS.Core.TaskArguments
import BubackOS.Core.VmemRuns
import Mathlib.Data.List.GetD

/-!
# The arguments as the task reads them

The copy goes through physical addresses in two stretches, one for the pointers and one for
the rest; the task reads through the pages of its address space.  The two agree where every byte
of the layout ends up behind its own address, as it does in pages that follow each other in
physical memory; the word behind the pointer array is never written.
-/

namespace BubackOS

open Library

variable {k : Kernel} {v stack stackSize : Nat} {pages : List Nat} {arguments : List (List UInt8)}

/-- The memory as a task with this address space reads it. -/
def taskView (k : Kernel) (v : Nat) : Memory := fun a => k.mem (vmemGetPhysicalAddress k v a)

/-- The documented layout, read by the task: `task_userdata_t` at `u`, the pointers from `stack` on,
the strings they lead to, one behind the other, and the `NULL` before them. -/
structure Readable (view : Memory) (u stack : Nat) (arguments : List (List UInt8)) : Prop where
  count : view.load64 u = arguments.length
  list : view.load64 (u + sizeofLong) = stack
  pointers : ∀ i < arguments.length,
    view.load64 (stack + sizeofLong * i) = argumentsStart stack arguments + totalSize (arguments.take i)
  copies : ∀ i < arguments.length, ∀ j < (arguments.getD i []).length,
    view (view.load64 (stack + sizeofLong * i) + j) = (arguments.getD i []).getD j 0
  terminated : view.load64 (stack + sizeofLong * arguments.length) = 0

/-! ## The layout as one byte string -/

/-- The pointer to each argument. -/
def pointerWords (stack : Nat) (arguments : List (List UInt8)) : List (List UInt8) :=
  (List.range arguments.length).map fun i =>
    wordBytes (argumentsStart stack arguments + totalSize (arguments.take i))

/-- The pointers, `NULL`, the arguments and `task_userdata_t`. -/
def layoutBytes (stack : Nat) (arguments : List (List UInt8)) : List UInt8 :=
  (pointerWords stack arguments).flatten ++ (wordBytes 0 ++ (arguments.flatten ++
    (wordBytes arguments.length ++ wordBytes stack)))

theorem pointerWords_sizes (stack : Nat) (arguments : List (List UInt8)) {i : Nat} (few : i ≤ arguments.length) :
    (((pointerWords stack arguments).take i).map List.length).sum = sizeofLong * i := by
  have eight : ((pointerWords stack arguments).take i).map List.length = List.replicate i 8 := by
    refine List.eq_replicate_iff.mpr ⟨by simp [pointerWords, few], fun size member => ?_⟩
    obtain ⟨bytes, inside, rfl⟩ := List.mem_map.mp member
    obtain ⟨j, -, rfl⟩ := List.mem_map.mp (List.mem_of_mem_take inside)
    exact wordBytes_length _
  rw [eight, List.sum_replicate_nat, Nat.mul_comm]
  rfl

theorem pointerWords_getD (stack : Nat) {arguments : List (List UInt8)} {i : Nat} (inside : i < arguments.length) :
    (pointerWords stack arguments).getD i [] =
      wordBytes (argumentsStart stack arguments + totalSize (arguments.take i)) := by
  simp [pointerWords, List.getD_eq_getElem?_getD, inside]

theorem totalSize_take_le (arguments : List (List UInt8)) (i : Nat) :
    totalSize (arguments.take i) ≤ totalSize arguments := by
  have split : totalSize (arguments.take i ++ arguments.drop i) =
      totalSize (arguments.take i) + totalSize (arguments.drop i) := by
    simp [totalSize]
  rw [List.take_append_drop] at split
  omega

/-- The task reads the documented layout exactly if it lies in its memory byte for byte. -/
theorem readable_iff_has (layable : Layable stack stackSize arguments) (view : Memory) :
    Readable view (argumentsStart stack arguments + totalSize arguments) stack arguments ↔
      view.Has stack (layoutBytes stack arguments) := by
  have ending : argumentsStart stack arguments + totalSize arguments < 2 ^ 64 := layable.ending
  have words := layable.words
  have few : arguments.length < 2 ^ 64 := by
    unfold argumentsStart sizeofLong at ending
    omega
  have pointersLength : (pointerWords stack arguments).flatten.length = sizeofLong * arguments.length := by
    have sizes := pointerWords_sizes stack arguments (Nat.le_refl _)
    rwa [List.take_of_length_le (by simp [pointerWords]), ← List.length_flatten] at sizes
  have start : stack + sizeofLong * arguments.length + 8 = argumentsStart stack arguments := by
    unfold argumentsStart sizeofLong
    omega
  have pointer : ∀ i < arguments.length, (view.Has (stack + (((pointerWords stack arguments).take i).map
      List.length).sum) ((pointerWords stack arguments).getD i []) ↔ view.load64 (stack + sizeofLong * i) =
        argumentsStart stack arguments + totalSize (arguments.take i)) := by
    intro i inside
    have less := totalSize_take_le arguments i
    rw [pointerWords_sizes _ _ (Nat.le_of_lt inside), pointerWords_getD _ inside, Memory.has_wordBytes (by omega)]
  have count : (pointerWords stack arguments).length = arguments.length := by simp [pointerWords]
  unfold layoutBytes
  rw [Memory.has_append, Memory.has_append, Memory.has_append, Memory.has_append, Memory.has_flatten,
    Memory.has_flatten, pointersLength, wordBytes_length, wordBytes_length, start, List.length_flatten, count,
    Memory.has_wordBytes (by decide), Memory.has_wordBytes few, Memory.has_wordBytes (by omega)]
  constructor
  · intro readable
    refine ⟨fun i inside => (pointer i inside).mpr (readable.pointers i inside), readable.terminated,
      fun i inside j few => ?_, readable.count, readable.list⟩
    rw [← readable.copies i inside j few, readable.pointers i inside]
    rfl
  · rintro ⟨pointers, terminated, copies, isCount, isList⟩
    have target : ∀ i < arguments.length, _ := fun i inside => (pointer i inside).mp (pointers i inside)
    refine ⟨isCount, isList, target, fun i inside j few => ?_, terminated⟩
    rw [target i inside]
    exact copies i inside j few

/-! ## Where the stores go -/

/-- The stores for the arguments from `i` on: each string goes behind the one before, and its address into
its slot. -/
def storesFrom (pointers : Nat) : Nat → Nat → Nat → List (List UInt8) → List Write
  | _, _, _, [] => []
  | i, data, place, argument :: rest =>
      { addr := place, bytes := argument } ::
      { addr := wrap (pointers + sizeofLong * i), bytes := wordBytes data } ::
      storesFrom pointers (i + 1) (data + argument.length) (wrap (place + argument.length)) rest

/-- All stores, with the physical addresses of the stack and of the first string as the address space gives
them. -/
def argumentStores (k : Kernel) (v stack : Nat) (arguments : List (List UInt8)) : List Write :=
  storesFrom (vmemGetPhysicalAddress k v stack) 0 (argumentsStart stack arguments)
      (vmemGetPhysicalAddress k v (argumentsStart stack arguments)) arguments ++
    [{ addr := trailerPointer k v stack arguments, bytes := wordBytes arguments.length ++ wordBytes stack }]

/-- What comes to lie behind a virtual address: the byte of the last store over its physical address, or the
byte that was there before. -/
def arriving (k : Kernel) (v : Nat) (stores : List Write) : Memory := fun a =>
  (Memory.lastByte stores (vmemGetPhysicalAddress k v a)).getD (k.mem (vmemGetPhysicalAddress k v a))

/-- Every byte of the documented layout comes to lie behind its own address. -/
def Arrives (k : Kernel) (v stack : Nat) (arguments : List (List UInt8)) : Prop :=
  (arriving k v (argumentStores k v stack arguments)).Has stack (layoutBytes stack arguments)

theorem copyLoop_stored {ptrs : Nat} (arguments : List (List UInt8)) : ∀ (i data dataPhys : Nat),
    CopyPoint stack stackSize i arguments.length data (totalSize arguments) →
    (copyLoop stack stackSize ptrs i arguments data dataPhys).1.isSome →
    (copyLoop stack stackSize ptrs i arguments data dataPhys).2.map Placement.stored =
      storesFrom ptrs i data dataPhys arguments := by
  induction arguments with
  | nil => exact fun i data dataPhys _ _ => rfl
  | cons argument rest ih =>
      intro i data dataPhys point ended
      rw [totalSize_cons] at point
      rw [copyLoop_cons point] at ended ⊢
      split at ended
      · exact absurd ended (by simp)
      · rename_i fits
        rw [if_neg fits, storesFrom, ← ih (i + 1) _ _ point.next ended]
        rfl

/-- What `copy_arguments_to_task` does when it does not return `0`. -/
theorem layOutArguments_of_made (layable : Layable stack stackSize arguments)
    (made : (copyArgumentsToTask v stack stackSize arguments k).1 ≠ 0) :
    layOutArguments k v stack stackSize arguments =
      (argumentsStart stack arguments + totalSize arguments, copies k v stack stackSize arguments ++
        [{ vaddr := argumentsStart stack arguments + totalSize arguments
           pointer := trailerPointer k v stack arguments
           bytes := wordBytes arguments.length ++ wordBytes stack }]) ∧
    ArgumentsFit stackSize arguments ∧
    (copyLoop stack stackSize (vmemGetPhysicalAddress k v stack) 0 arguments (argumentsStart stack arguments)
      (vmemGetPhysicalAddress k v (argumentsStart stack arguments))).1.isSome := by
  have fit : ArgumentsFit stackSize arguments := by
    rw [copyArgumentsToTask, layOutArguments_result layable] at made
    by_contra full
    exact made (if_neg fun all => full all.2.2)
  refine ⟨?_, fit, ?_⟩
  · rw [copyArgumentsToTask, layOutArguments_eq layable] at made
    rw [layOutArguments_eq layable]
    split at made
    · exact absurd rfl made
    · rename_i found
      rw [if_neg found, if_pos fit]
  · have fits := mt layable.overflow_iff.mp (not_not.mpr fit)
    rw [copyLoop_result _ arguments 0 _ _ layable.point, if_neg fits]
    rfl

/-- The memory of the task after the copy. -/
theorem taskView_copied (layable : Layable stack stackSize arguments)
    (made : (copyArgumentsToTask v stack stackSize arguments k).1 ≠ 0) :
    taskView (copyArgumentsToTask v stack stackSize arguments k).2 v =
      arriving k v (argumentStores k v stack arguments) := by
  obtain ⟨layout, -, ended⟩ := layOutArguments_of_made layable made
  have stores : (layOutArguments k v stack stackSize arguments).2.map Placement.stored =
      argumentStores k v stack arguments := by
    rw [layout, List.map_append, copies, copyLoop_stored arguments 0 _ _ layable.point ended]
    rfl
  funext a
  have same : vmemGetPhysicalAddress (copyArgumentsToTask v stack stackSize arguments k).2 v a =
      vmemGetPhysicalAddress k v a := rfl
  rw [taskView, same, arriving, ← Memory.writeAll_eq_lastByte, ← stores]
  rfl

/-- The task reads the documented layout exactly if each of its bytes arrives. -/
theorem readable_iff_arrives (layable : Layable stack stackSize arguments)
    (made : (copyArgumentsToTask v stack stackSize arguments k).1 ≠ 0) :
    Readable (taskView (copyArgumentsToTask v stack stackSize arguments k).2 v)
      (copyArgumentsToTask v stack stackSize arguments k).1 stack arguments ↔ Arrives k v stack arguments := by
  have result : (copyArgumentsToTask v stack stackSize arguments k).1 =
      argumentsStart stack arguments + totalSize arguments := by
    rw [copyArgumentsToTask, (layOutArguments_of_made layable made).1]
  rw [result, readable_iff_has layable, taskView_copied layable made]
  rfl

/-! ## Pages that follow each other -/

/-- The pages behind a region of whole pages at `stack`. -/
structure Backed (k : Kernel) (v stack : Nat) (pages : List Nat) : Prop where
  present : pages ≠ []
  aligned : stack % 4096 = 0
  room : stack + 4096 * pages.length < 2 ^ 64
  whole : ∀ page ∈ pages, page % 4096 = 0 ∧ page < 2 ^ 64
  mapped : ∀ i < pages.length, ∃ entry, findMap (k.vmem v).map.items (stack + 4096 * i) = some entry ∧
    entry.physicalAddr = pages.getD i 0

/-- Each page follows the one before. -/
def Adjacent (pages : List Nat) : Prop := ∀ i < pages.length, pages.getD i 0 = pages.getD 0 0 + 4096 * i

/-! ## Translation -/

theorem Backed.page (backed : Backed k v stack pages) {i : Nat} (inside : i < pages.length) :
    pages.getD i 0 % 4096 = 0 ∧ pages.getD i 0 < 2 ^ 64 := by
  rw [List.getD_eq_getElem?_getD, List.getElem?_eq_getElem inside, Option.getD_some]
  exact backed.whole _ (List.getElem_mem inside)

theorem Backed.translate (backed : Backed k v stack pages) {i j : Nat} (inside : i < pages.length)
    (small : j < 4096) : vmemGetPhysicalAddress k v (stack + 4096 * i + j) = pages.getD i 0 + j := by
  obtain ⟨entry, found, physical⟩ := backed.mapped i inside
  obtain ⟨aligned, word⟩ := backed.page inside
  have start := backed.aligned
  have page : memAlign (stack + 4096 * i + j) = stack + 4096 * i := by
    unfold memAlign align systemPageSize
    omega
  unfold vmemGetPhysicalAddress
  rw [page, found]
  dsimp only
  rw [physical, Nat.add_sub_cancel_left, wrap_of_lt (by omega)]

/-- In adjacent pages the translation is one shift. -/
theorem Backed.shift (backed : Backed k v stack pages) (adjacent : Adjacent pages) {j : Nat}
    (inside : j < 4096 * pages.length) : vmemGetPhysicalAddress k v (stack + j) = pages.getD 0 0 + j := by
  have few : j / 4096 < pages.length := by omega
  have split : stack + j = stack + 4096 * (j / 4096) + j % 4096 := by omega
  rw [split, backed.translate few (by omega), adjacent _ few]
  omega

theorem Backed.top (backed : Backed k v stack pages) (adjacent : Adjacent pages) :
    pages.getD 0 0 + 4096 * pages.length ≤ 2 ^ 64 := by
  have positive := List.length_pos_iff.mpr backed.present
  have last := backed.page (i := pages.length - 1) (by omega)
  rw [adjacent _ (by omega)] at last
  omega

/-! ## The stores, as pointers -/

/-- The pointers of the loop keep their distance to the virtual addresses. -/
theorem copyLoop_pointers {base : Nat} (arguments : List (List UInt8)) : ∀ (i data dataPhys : Nat),
    CopyPoint stack stackSize i arguments.length data (totalSize arguments) → stack ≤ data →
    dataPhys = base + (data - stack) → base + (data - stack) + totalSize arguments < 2 ^ 64 →
    ∀ p ∈ (copyLoop stack stackSize base i arguments data dataPhys).2,
      stack ≤ p.vaddr ∧ p.pointer = base + (p.vaddr - stack) := by
  induction arguments with
  | nil => exact fun i data dataPhys _ _ _ _ p member => absurd member List.not_mem_nil
  | cons argument rest ih =>
      intro i data dataPhys point behind isPhys words p member
      rw [totalSize_cons] at point words
      rw [copyLoop_cons point] at member
      split at member
      · exact absurd member List.not_mem_nil
      · have advance : wrap (dataPhys + argument.length) = base + (data + argument.length - stack) := by
          rw [isPhys, wrap_of_lt (by omega)]
          omega
        rcases List.mem_cons.mp member with rfl | member
        · exact ⟨behind, isPhys⟩
        · rcases List.mem_cons.mp member with rfl | later
          · have slot := point.slot_lt
            refine ⟨Nat.le_add_right _ _, ?_⟩
            dsimp only
            rw [wrap_of_lt (by omega), Nat.add_sub_cancel_left]
          · exact ih (i + 1) _ _ point.next (by omega) advance (by omega) p later

/-- The loop that comes to its end has made every copy and filled every slot. -/
theorem copyLoop_members {ptrs : Nat} (arguments : List (List UInt8)) : ∀ (i data dataPhys : Nat),
    CopyPoint stack stackSize i arguments.length data (totalSize arguments) →
    (copyLoop stack stackSize ptrs i arguments data dataPhys).1.isSome →
    ∀ j < arguments.length,
      ∃ copy ∈ (copyLoop stack stackSize ptrs i arguments data dataPhys).2,
      ∃ slot ∈ (copyLoop stack stackSize ptrs i arguments data dataPhys).2,
        copy.bytes = arguments.getD j [] ∧ slot.vaddr = stack + sizeofLong * (i + j) ∧
        slot.bytes = wordBytes copy.vaddr ∧ copy.vaddr = data + totalSize (arguments.take j) := by
  induction arguments with
  | nil => exact fun i data dataPhys _ _ j inside => absurd inside (Nat.not_lt_zero _)
  | cons argument rest ih =>
      intro i data dataPhys point ended j inside
      rw [totalSize_cons] at point
      rw [copyLoop_cons point] at ended ⊢
      split at ended
      · exact absurd ended (by simp)
      · rename_i fits
        rw [if_neg fits]
        cases j with
        | zero =>
            exact ⟨_, List.mem_cons_self, _, List.mem_cons_of_mem _ List.mem_cons_self, rfl, rfl, rfl, rfl⟩
        | succ j =>
            obtain ⟨copy, inCopies, slot, inSlots, bytes, place, pointer, here⟩ :=
              ih (i + 1) _ _ point.next ended j (Nat.lt_of_succ_lt_succ inside)
            refine ⟨copy, List.mem_cons_of_mem _ (List.mem_cons_of_mem _ inCopies), slot,
              List.mem_cons_of_mem _ (List.mem_cons_of_mem _ inSlots), bytes, ?_, pointer, ?_⟩
            · rw [place]
              congr 2
              omega
            · rw [here, List.take_succ_cons, totalSize_cons, Nat.add_assoc]

theorem trailerPointer_eq {base start : Nat} (arguments : List (List UInt8))
    (words : base + start + totalSize arguments < 2 ^ 64) :
    arguments.foldl (fun p argument => wrap (p + argument.length)) (base + start) =
      base + (start + totalSize arguments) := by
  induction arguments generalizing start with
  | nil => rfl
  | cons argument rest ih =>
      rw [totalSize_cons] at words ⊢
      rw [List.foldl_cons, wrap_of_lt (by omega), Nat.add_assoc base, ih (by omega)]
      omega

/-! ## Reading the copy back -/

/-- The bytes of the whole layout. -/
def layoutSize (arguments : List (List UInt8)) : Nat :=
  sizeofLong * (arguments.length + 1) + totalSize arguments + sizeofTaskUserdata

/-- A copy that was made, with adjacent pages behind the whole layout. -/
structure Copied (k : Kernel) (v stack stackSize : Nat) (pages : List Nat) (arguments : List (List UInt8)) :
    Prop where
  backed : Backed k v stack pages
  adjacent : Adjacent pages
  layable : Layable stack stackSize arguments
  covered : layoutSize arguments ≤ 4096 * pages.length
  made : (copyArgumentsToTask v stack stackSize arguments k).1 ≠ 0

namespace Copied

variable (copied : Copied k v stack stackSize pages arguments)

include copied

theorem layout : layOutArguments k v stack stackSize arguments =
    (argumentsStart stack arguments + totalSize arguments, copies k v stack stackSize arguments ++
      [{ vaddr := argumentsStart stack arguments + totalSize arguments
         pointer := trailerPointer k v stack arguments
         bytes := wordBytes arguments.length ++ wordBytes stack }]) :=
  (layOutArguments_of_made copied.layable copied.made).1

theorem start_eq : vmemGetPhysicalAddress k v stack = pages.getD 0 0 := by
  have positive := List.length_pos_iff.mpr copied.backed.present
  have first := copied.backed.shift copied.adjacent (j := 0) (by omega)
  exact first

theorem room : sizeofLong * (arguments.length + 1) + totalSize arguments + sizeofTaskUserdata ≤
    4096 * pages.length := copied.covered

/-- Every store lies in front of the end of the layout. -/
theorem placed {p : Placement} (member : p ∈ (layOutArguments k v stack stackSize arguments).2) :
    stack ≤ p.vaddr ∧ p.vaddr + p.bytes.length ≤ stack + 4096 * pages.length := by
  have room := copied.room
  rw [copied.layout] at member
  rcases List.mem_append.mp member with inCopies | trailer
  · obtain ⟨place, inside⟩ := (copies_layout copied.layable).2 p inCopies
    simp only [Write.Within, Write.stop, Placement.intended, argumentsStart, sizeofLong, sizeofTaskUserdata]
      at place inside room
    omega
  · rw [List.mem_singleton.mp trailer]
    simp only [argumentsStart, sizeofLong, sizeofTaskUserdata, List.length_append, wordBytes_length] at room ⊢
    omega

theorem argumentsStart_eq : vmemGetPhysicalAddress k v (argumentsStart stack arguments) =
    pages.getD 0 0 + sizeofLong * (arguments.length + 1) := by
  have room := copied.room
  refine copied.backed.shift copied.adjacent ?_
  unfold sizeofTaskUserdata at room
  omega

/-- Every store goes to the page that backs its virtual address. -/
theorem shifted : ∀ p ∈ (layOutArguments k v stack stackSize arguments).2,
    stack ≤ p.intended.addr ∧
      p.stored = { addr := pages.getD 0 0 + (p.intended.addr - stack), bytes := p.intended.bytes } := by
  have top := copied.backed.top copied.adjacent
  have room := copied.room
  have distance : argumentsStart stack arguments - stack = sizeofLong * (arguments.length + 1) := by
    unfold argumentsStart
    omega
  unfold sizeofTaskUserdata at room
  rw [copied.layout]
  intro p member
  rcases List.mem_append.mp member with inCopies | trailer
  · unfold copies at inCopies
    rw [copied.start_eq, copied.argumentsStart_eq] at inCopies
    obtain ⟨behind, pointer⟩ := copyLoop_pointers arguments 0 _ _ copied.layable.point
      (by unfold argumentsStart; omega) (by rw [distance]) (by rw [distance]; omega) p inCopies
    refine ⟨behind, ?_⟩
    unfold Placement.stored Placement.intended
    rw [pointer]
  · rw [List.mem_singleton.mp trailer]
    unfold Placement.stored Placement.intended trailerPointer
    rw [copied.argumentsStart_eq, trailerPointer_eq _ (by omega)]
    dsimp only
    refine ⟨by unfold argumentsStart; omega, ?_⟩
    congr 1
    unfold argumentsStart
    omega

/-- The region as the task reads it afterwards: the stores at their virtual addresses. -/
theorem view {j : Nat} (inside : j < 4096 * pages.length) :
    taskView (copyArgumentsToTask v stack stackSize arguments k).2 v (stack + j) =
      (k.mem.shift (pages.getD 0 0) stack).writeAll
        ((layOutArguments k v stack stackSize arguments).2.map Placement.intended) (stack + j) := by
  have translate : vmemGetPhysicalAddress (copyArgumentsToTask v stack stackSize arguments k).2 v
      (stack + j) = pages.getD 0 0 + j := copied.backed.shift copied.adjacent inside
  unfold taskView
  rw [translate]
  exact Memory.writeAll_shift _ copied.shifted k.mem j

/-- What a store put is what the task reads. -/
theorem view_inside {p : Placement}
    (member : p ∈ (layOutArguments k v stack stackSize arguments).2) {i : Nat}
    (inside : i < p.bytes.length) :
    taskView (copyArgumentsToTask v stack stackSize arguments k).2 v (p.vaddr + i) =
      p.bytes.getD i 0 := by
  have apart := (layOutArguments_layout k v copied.layable).1
  obtain ⟨low, high⟩ := copied.placed member
  have split : p.vaddr + i = stack + (p.vaddr - stack + i) := by omega
  rw [split, copied.view (by omega), ← split]
  exact Memory.writeAll_inside (w := p.intended) (apart.map _ fun _ _ h => h) (List.mem_map_of_mem member) inside

/-- The word behind the pointers keeps its old content. -/
theorem view_terminator :
    (taskView (copyArgumentsToTask v stack stackSize arguments k).2 v).load64
        (stack + sizeofLong * arguments.length) =
      (taskView k v).load64 (stack + sizeofLong * arguments.length) := by
  have room := copied.room
  unfold sizeofTaskUserdata sizeofLong at room
  refine Memory.load64_congr fun a low high => ?_
  obtain ⟨j, rfl⟩ : ∃ j, a = stack + j := ⟨a - stack, by unfold sizeofLong at low; omega⟩
  unfold sizeofLong at low high
  have before : taskView k v (stack + j) = k.mem (pages.getD 0 0 + j) := by
    unfold taskView
    rw [copied.backed.shift copied.adjacent (by omega)]
  rw [copied.view (by omega), Memory.writeAll_outside, before, Memory.shift_add]
  intro w member
  obtain ⟨p, inLayout, rfl⟩ := List.mem_map.mp member
  rw [copied.layout] at inLayout
  rcases List.mem_append.mp inLayout with inCopies | trailer
  · have placed := ((copies_layout copied.layable).2 p inCopies).1
    simp only [Write.Within, argumentsStart, sizeofLong] at placed
    omega
  · rw [List.mem_singleton.mp trailer]
    simp only [Placement.intended, argumentsStart, sizeofLong]
    omega

theorem result : (copyArgumentsToTask v stack stackSize arguments k).1 =
    argumentsStart stack arguments + totalSize arguments := by
  rw [copyArgumentsToTask, copied.layout]

/-- A word that a store put. -/
theorem view_word {p : Placement} (member : p ∈ (layOutArguments k v stack stackSize arguments).2)
    (offset word : Nat) (bytes : ∀ i < 8, offset + i < p.bytes.length ∧
      p.bytes.getD (offset + i) 0 = (wordBytes word).getD i 0) (bound : word < 2 ^ 64) :
    (taskView (copyArgumentsToTask v stack stackSize arguments k).2 v).load64 (p.vaddr + offset) =
      word := by
  refine Memory.load64_wordBytes bound fun i small => ?_
  rw [Nat.add_assoc, copied.view_inside member (bytes i small).1]
  exact (bytes i small).2

/-- A slot leads to the copy of its argument. -/
theorem target (i : Nat) (few : i < arguments.length) :
    (taskView (copyArgumentsToTask v stack stackSize arguments k).2 v).load64 (stack + sizeofLong * i) =
        argumentsStart stack arguments + totalSize (arguments.take i) ∧
      ∃ copy ∈ (layOutArguments k v stack stackSize arguments).2, copy.bytes = arguments.getD i [] ∧
        copy.vaddr = argumentsStart stack arguments + totalSize (arguments.take i) := by
  have ended := (layOutArguments_of_made copied.layable copied.made).2.2
  obtain ⟨copy, inCopies, slot, inSlots, bytes, place, pointer, here⟩ :=
    copyLoop_members arguments 0 _ _ copied.layable.point ended i few
  have members : copy ∈ (layOutArguments k v stack stackSize arguments).2 ∧
      slot ∈ (layOutArguments k v stack stackSize arguments).2 := by
    rw [copied.layout]
    exact ⟨List.mem_append_left _ inCopies, List.mem_append_left _ inSlots⟩
  have word : copy.vaddr < 2 ^ 64 := by
    have ending := copied.layable.point.dataWords
    have less := totalSize_take_le arguments i
    omega
  have read := copied.view_word members.2 0 copy.vaddr (fun b small => by
    rw [Nat.zero_add, pointer]
    exact ⟨by simpa using small, rfl⟩) word
  rw [place, Nat.zero_add] at read
  exact ⟨read.trans here, copy, members.1, bytes, here⟩

/-- In adjacent pages the task reads the documented layout, if the word behind the pointers was
zero before. -/
theorem readable_iff :
    Readable (taskView (copyArgumentsToTask v stack stackSize arguments k).2 v)
      (copyArgumentsToTask v stack stackSize arguments k).1 stack arguments ↔
    (taskView k v).load64 (stack + sizeofLong * arguments.length) = 0 := by
  constructor
  · intro readable
    rw [← copied.view_terminator]
    exact readable.terminated
  · intro zero
    have layout := copied.layout
    have ending := copied.layable.ending
    have trailer : { vaddr := argumentsStart stack arguments + totalSize arguments
                     pointer := trailerPointer k v stack arguments
                     bytes := wordBytes arguments.length ++ wordBytes stack } ∈
        (layOutArguments k v stack stackSize arguments).2 := by
      rw [layout]
      simp
    refine ⟨?_, ?_, ?_, ?_, by rw [copied.view_terminator]; exact zero⟩
    · rw [copied.result]
      refine copied.view_word trailer 0 _ (fun i small => ?_) (by unfold sizeofLong at ending; omega)
      rw [Nat.zero_add, List.getD_append _ _ _ _ (by simpa using small)]
      exact ⟨by simp; omega, rfl⟩
    · rw [copied.result]
      refine copied.view_word trailer _ _ (fun i small => ?_) (by omega)
      unfold sizeofLong
      rw [List.getD_append_right _ _ _ _ (by simp)]
      refine ⟨by simp; omega, ?_⟩
      congr 1
      simp
    · exact fun i few => (copied.target i few).1
    · intro i few j inside
      obtain ⟨isTarget, copy, member, bytes, here⟩ := copied.target i few
      rw [isTarget, ← here, copied.view_inside member (by rw [bytes]; exact inside), bytes]

end Copied

/-- A task on a machine whose free pages hold old data. -/
def staleTask : TaskSystem :=
  (taskCreate BubackOS.kalloc "init" (some 0) (taskServiceInitialize BubackOS.kalloc
    (schedulerInitialise BubackOS.kalloc (.start
      (vmemStart BubackOS.kalloc { sampleKernel with mem := fun _ => 7 }))).2)).2

/-- An argument that ends on the first byte of the second page. -/
def longArgument : List UInt8 := List.replicate 4080 1 ++ [2]

end BubackOS
