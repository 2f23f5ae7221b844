import Mathlib.Algebra.Group.Nat.Defs
import Mathlib.Data.List.Induction
import Mathlib.Data.List.Nodup

/-!
# Packed words and tables of slots

Bit fields that follow each other from the lowest bit of a word, and tables whose slots are
written one at a time: what a slot shows is what its last write put there.
-/

namespace BubackOS.Library

/-- Fields as widths and values; a value loses the bits that do not fit. -/
def pack : List (Nat × Nat) → Nat
  | [] => 0
  | (width, value) :: rest => value % 2 ^ width + 2 ^ width * pack rest

/-- The values of fields of such widths. -/
def unpack : List Nat → Nat → List Nat
  | [], _ => []
  | width :: rest, word => word % 2 ^ width :: unpack rest (word / 2 ^ width)

/-- Every field can be read back. -/
theorem unpack_pack : ∀ fields : List (Nat × Nat),
    unpack (fields.map Prod.fst) (pack fields) = fields.map fun field => field.2 % 2 ^ field.1
  | [] => rfl
  | (width, value) :: rest => by
      have low : (value % 2 ^ width + 2 ^ width * pack rest) % 2 ^ width = value % 2 ^ width := by
        rw [Nat.add_mul_mod_self_left, Nat.mod_mod]
      have high : (value % 2 ^ width + 2 ^ width * pack rest) / 2 ^ width = pack rest := by
        rw [Nat.add_mul_div_left _ _ (Nat.two_pow_pos width),
          Nat.div_eq_of_lt (Nat.mod_lt _ (Nat.two_pow_pos width)), Nat.zero_add]
      rw [List.map_cons, List.map_cons, pack, unpack, low, high, unpack_pack rest]

section Slots

variable {Call Word View : Type} (slot : Call → Nat) (write : Call → Word → Word)

/-- A call writes its own slot. -/
def writeSlot (call : Call) (table : Nat → Word) : Nat → Word :=
  fun i => if i = slot call then write call (table i) else table i

/-- The calls, one after the other. -/
def writeSlots (calls : List Call) (table : Nat → Word) : Nat → Word :=
  calls.foldl (fun table call => writeSlot slot write call table) table

/-- The last call for a slot. -/
def lastFor (calls : List Call) (i : Nat) : Option Call := calls.reverse.find? fun call => slot call == i

variable {slot write} {view : Word → View} {shows : Call → View}

/-- A slot shows what the last call for it put there, if every call does so on the words it may find. -/
theorem view_writeSlots (Sound : Word → Prop)
    (written : ∀ call word, Sound word → Sound (write call word) ∧ view (write call word) = shows call)
    {table : Nat → Word} (sound : ∀ i, Sound (table i)) (calls : List Call) (i : Nat) :
    Sound (writeSlots slot write calls table i) ∧
      view (writeSlots slot write calls table i) = ((lastFor slot calls i).map shows).getD (view (table i)) := by
  induction calls using List.reverseRecOn with
  | nil => exact ⟨sound i, rfl⟩
  | append_singleton calls call ih =>
      unfold writeSlots lastFor at *
      rw [List.foldl_append, List.foldl_cons, List.foldl_nil, List.reverse_append, List.reverse_singleton,
        List.singleton_append, List.find?_cons, writeSlot]
      by_cases own : i = slot call
      · rw [if_pos own, own, beq_self_eq_true]
        exact written call _ (own ▸ ih.1)
      · rw [if_neg own, beq_eq_false_iff_ne.mpr (Ne.symm own)]
        exact ih

theorem lastFor_of_nodup {calls : List Call} (apart : (calls.map slot).Nodup) {call : Call} (member : call ∈ calls) :
    lastFor slot calls (slot call) = some call := by
  have there : (lastFor slot calls (slot call)).isSome :=
    List.find?_isSome.mpr ⟨call, List.mem_reverse.mpr member, beq_self_eq_true (slot call)⟩
  obtain ⟨found, isFound⟩ := Option.isSome_iff_exists.mp there
  unfold lastFor at isFound ⊢
  have listed : found ∈ calls := List.mem_reverse.mp (List.mem_of_find?_eq_some isFound)
  have same := List.find?_some isFound
  rw [isFound, List.inj_on_of_nodup_map apart listed member (beq_iff_eq.mp same)]

end Slots

end BubackOS.Library
