import Mathlib.Logic.Function.Basic

/-!
# Object stores

A store hands out consecutive references to objects that are never reclaimed.
An update through one reference is seen by no other.
-/

namespace BubackOS.Library

/-- Objects `get 0, …, get (count - 1)` have been created so far. -/
structure Store (α : Type) where
  count : Nat
  get : Nat → α

namespace Store

variable {α : Type}

/-- Create an object; its reference is the old `count`. -/
def new (store : Store α) (object : α) : Store α where
  count := store.count + 1
  get := fun ref => if ref = store.count then object else store.get ref

/-- Replace the object behind one reference. -/
def modify (store : Store α) (ref : Nat) (change : α → α) : Store α where
  count := store.count
  get := fun other => if other = ref then change (store.get other) else store.get other

@[simp] theorem new_count (store : Store α) (object : α) :
    (store.new object).count = store.count + 1 := rfl

@[simp] theorem modify_count (store : Store α) (ref : Nat) (change : α → α) :
    (store.modify ref change).count = store.count := rfl

@[simp] theorem new_get_self (store : Store α) (object : α) :
    (store.new object).get store.count = object := if_pos rfl

@[simp] theorem modify_get_self (store : Store α) (ref : Nat) (change : α → α) :
    (store.modify ref change).get ref = change (store.get ref) := if_pos rfl

theorem new_get_of_ne {store : Store α} {object : α} {ref : Nat} (other : ref ≠ store.count) :
    (store.new object).get ref = store.get ref := if_neg other

theorem modify_get_of_ne {store : Store α} {ref other : Nat} {change : α → α}
    (different : other ≠ ref) : (store.modify ref change).get other = store.get other :=
  if_neg different

theorem modify_get (store : Store α) (ref other : Nat) (change : α → α) :
    (store.modify ref change).get other =
      if other = ref then change (store.get other) else store.get other := rfl

/-- An update is determined by the object it finds. -/
theorem modify_congr {store : Store α} {ref : Nat} {change change' : α → α}
    (same : change (store.get ref) = change' (store.get ref)) :
    store.modify ref change = store.modify ref change' := by
  unfold modify
  congr 1
  funext other
  split
  · rename_i isRef
    rw [isRef, same]
  · rfl

theorem modify_of_fixed {store : Store α} {ref : Nat} {change : α → α}
    (fixed : change (store.get ref) = store.get ref) : store.modify ref change = store := by
  rw [show store.modify ref change = store.modify ref id from modify_congr fixed]
  simp [modify]

theorem modify_modify (store : Store α) (ref : Nat) (first second : α → α) :
    (store.modify ref first).modify ref second = store.modify ref (second ∘ first) := by
  unfold modify
  congr 1
  funext other
  by_cases isRef : other = ref <;> simp [isRef]

theorem new_modify (store : Store α) (object : α) (change : α → α) :
    (store.new object).modify store.count change = store.new (change object) := by
  unfold modify new
  congr 1
  funext other
  by_cases isNew : other = store.count <;> simp [isNew]

end Store
end BubackOS.Library
