import BubackOS.Library.ByteMemory
import Mathlib.Data.List.GetD
import Mathlib.Data.List.Induction
import Mathlib.Data.List.Pairwise

/-!
# Sequences of writes

Byte strings written to memory one after the other.  A byte outside all of them is kept,
and where no two of them overlap each is read back.
-/

namespace BubackOS.Library

/-- A byte string and its place. -/
structure Write where
  addr : Nat
  bytes : List UInt8
  deriving DecidableEq, Repr

namespace Write

/-- The place behind the last byte. -/
def stop (w : Write) : Nat := w.addr + w.bytes.length

/-- The two ranges have no byte in common. -/
def Apart (w w' : Write) : Prop := w.stop ≤ w'.addr ∨ w'.stop ≤ w.addr

/-- The range lies between two addresses. -/
def Within (low high : Nat) (w : Write) : Prop := low ≤ w.addr ∧ w.stop ≤ high

end Write

namespace Memory

variable {m m' : Memory} {w : Write} {ws : List Write} {a : Nat}

/-- Store the bytes of a write. -/
def write (m : Memory) (w : Write) : Memory := fun a =>
  if w.addr ≤ a ∧ a < w.stop then w.bytes.getD (a - w.addr) 0 else m a

/-- Store the writes in their order. -/
def writeAll (m : Memory) (ws : List Write) : Memory := ws.foldl write m

theorem writeAll_cons (m : Memory) (w : Write) (ws : List Write) :
    m.writeAll (w :: ws) = (m.write w).writeAll ws := rfl

theorem write_outside (outside : a < w.addr ∨ w.stop ≤ a) : m.write w a = m a :=
  if_neg (by omega)

theorem write_inside {i : Nat} (inside : i < w.bytes.length) : m.write w (w.addr + i) = w.bytes.getD i 0 := by
  have place : w.addr ≤ w.addr + i ∧ w.addr + i < w.stop := by
    unfold Write.stop
    omega
  unfold write
  rw [if_pos place, Nat.add_sub_cancel_left]

theorem writeAll_outside (outside : ∀ w ∈ ws, a < w.addr ∨ w.stop ≤ a) : m.writeAll ws a = m a := by
  induction ws generalizing m with
  | nil => rfl
  | cons w ws ih =>
      rw [writeAll_cons, ih fun other member => outside other (List.mem_cons_of_mem w member),
        write_outside (outside w List.mem_cons_self)]

/-- Every write is read back if no two of them overlap. -/
theorem writeAll_inside (apart : ws.Pairwise Write.Apart) (member : w ∈ ws) {i : Nat}
    (inside : i < w.bytes.length) : m.writeAll ws (w.addr + i) = w.bytes.getD i 0 := by
  induction ws generalizing m with
  | nil => exact absurd member List.not_mem_nil
  | cons first rest ih =>
      obtain ⟨firstApart, restApart⟩ := List.pairwise_cons.mp apart
      rw [writeAll_cons]
      rcases List.mem_cons.mp member with rfl | later
      · rw [writeAll_outside fun other inRest => ?_, write_inside inside]
        have disjoint := firstApart other inRest
        unfold Write.Apart Write.stop at disjoint
        unfold Write.stop
        omega
      · exact ih restApart later

/-- The byte that the last of the writes over an address puts there. -/
def lastByte (ws : List Write) (a : Nat) : Option UInt8 :=
  (ws.reverse.find? fun w => w.addr ≤ a ∧ a < w.stop).map fun w => w.bytes.getD (a - w.addr) 0

theorem writeAll_eq_lastByte (m : Memory) (ws : List Write) (a : Nat) :
    m.writeAll ws a = (lastByte ws a).getD (m a) := by
  induction ws using List.reverseRecOn with
  | nil => rfl
  | append_singleton ws w ih =>
      have last : m.writeAll (ws ++ [w]) = (m.writeAll ws).write w := List.foldl_append
      rw [last, lastByte, List.reverse_concat, List.find?_cons]
      unfold write
      by_cases covered : w.addr ≤ a ∧ a < w.stop
      · rw [if_pos covered, decide_eq_true covered]
        rfl
      · rw [if_neg covered, decide_eq_false covered, ih]
        rfl

/-- Two memories that agree at an address agree there after the same writes. -/
theorem writeAll_congr (same : m a = m' a) : m.writeAll ws a = m'.writeAll ws a := by
  induction ws generalizing m m' with
  | nil => exact same
  | cons w ws ih =>
      refine ih ?_
      unfold write
      split
      · rfl
      · exact same

/-- The bytes from `base` on, as seen from `origin` on. -/
def shift (m : Memory) (base origin : Nat) : Memory := fun a => m (base + (a - origin))

theorem shift_add (m : Memory) (base origin j : Nat) : m.shift base origin (origin + j) = m (base + j) := by
  unfold shift
  rw [Nat.add_sub_cancel_left]

/-- One write that goes to another place. -/
theorem write_shift {base origin : Nat} (behind : origin ≤ w.addr) (m : Memory) (j : Nat) :
    m.write { addr := base + (w.addr - origin), bytes := w.bytes } (base + j) =
      (m.shift base origin).write w (origin + j) := by
  have inside : (base + (w.addr - origin) ≤ base + j ∧ base + j < base + (w.addr - origin) + w.bytes.length) ↔
      (w.addr ≤ origin + j ∧ origin + j < w.addr + w.bytes.length) := by
    omega
  have index : base + j - (base + (w.addr - origin)) = origin + j - w.addr := by
    omega
  unfold write Write.stop
  dsimp only
  rw [shift_add, index]
  simp only [inside]

/-- Writes that go to another place, all by the same distance. -/
theorem writeAll_shift {α : Type} {stored intended : α → Write} {base origin : Nat} (ps : List α)
    (shifted : ∀ p ∈ ps, origin ≤ (intended p).addr ∧
      stored p = { addr := base + ((intended p).addr - origin), bytes := (intended p).bytes })
    (m : Memory) (j : Nat) :
    m.writeAll (ps.map stored) (base + j) = (m.shift base origin).writeAll (ps.map intended) (origin + j) := by
  induction ps generalizing m with
  | nil => exact (shift_add m base origin j).symm
  | cons p ps ih =>
      obtain ⟨behind, isStored⟩ := shifted p List.mem_cons_self
      rw [List.map_cons, List.map_cons, writeAll_cons, writeAll_cons,
        ih fun other member => shifted other (List.mem_cons_of_mem p member)]
      refine writeAll_congr ?_
      rw [shift_add, isStored]
      exact write_shift behind m j

end Memory

/-! ## Words -/

/-- The eight bytes of a word, least significant byte first. -/
def wordBytes (word : Nat) : List UInt8 := (List.range 8).map fun i => UInt8.ofNat (word / 256 ^ i)

@[simp] theorem wordBytes_length (word : Nat) : (wordBytes word).length = 8 := by simp [wordBytes]

theorem wordBytes_getD (word : Nat) {i : Nat} (small : i < 8) :
    (wordBytes word).getD i 0 = UInt8.ofNat (word / 256 ^ i) := by
  simp [wordBytes, List.getD_eq_getElem?_getD, small]

/-- Eight bytes that are those of a word load as the word. -/
theorem Memory.load64_wordBytes {m : Memory} {addr word : Nat} (bound : word < 2 ^ 64)
    (bytes : ∀ i < 8, m (addr + i) = (wordBytes word).getD i 0) : m.load64 addr = word := by
  have digits : m.load addr 8 = word % 256 ^ 8 := Memory.load_digits fun i small => by
    rw [bytes i small, wordBytes_getD word small]
  rw [Memory.load64, digits]
  exact Nat.mod_eq_of_lt (by omega)

/-! ## Byte strings in memory -/

namespace Memory

variable {m : Memory} {a : Nat}

/-- The bytes lie in memory from an address on. -/
def Has (m : Memory) (a : Nat) (bytes : List UInt8) : Prop := ∀ i < bytes.length, m (a + i) = bytes.getD i 0

theorem has_append {first second : List UInt8} :
    m.Has a (first ++ second) ↔ m.Has a first ∧ m.Has (a + first.length) second := by
  constructor
  · intro whole
    refine ⟨fun i inside => ?_, fun i inside => ?_⟩
    · rw [whole i (by rw [List.length_append]; omega), List.getD_append _ _ _ _ inside]
    · rw [Nat.add_assoc, whole (first.length + i) (by rw [List.length_append]; omega),
        List.getD_append_right _ _ _ _ (Nat.le_add_right _ _), Nat.add_sub_cancel_left]
  · rintro ⟨front, back⟩ i inside
    rw [List.length_append] at inside
    by_cases early : i < first.length
    · rw [front i early, List.getD_append _ _ _ _ early]
    · have late := back (i - first.length) (by omega)
      rw [Nat.add_assoc, Nat.add_sub_cancel' (by omega)] at late
      rw [late, List.getD_append_right _ _ _ _ (by omega)]

/-- One string behind the other. -/
theorem has_flatten {parts : List (List UInt8)} : m.Has a parts.flatten ↔
    ∀ i < parts.length, m.Has (a + ((parts.take i).map List.length).sum) (parts.getD i []) := by
  induction parts generalizing a with
  | nil => exact ⟨fun _ i inside => absurd inside (Nat.not_lt_zero i), fun _ i inside => absurd inside (Nat.not_lt_zero i)⟩
  | cons first rest ih =>
      rw [List.flatten_cons, has_append, ih, List.length_cons, Nat.forall_lt_succ_left]
      refine and_congr (by simp) (forall₂_congr fun i _ => ?_)
      rw [List.take_succ_cons, List.map_cons, List.sum_cons, List.getD_cons_succ, Nat.add_assoc]

theorem has_wordBytes {word : Nat} (bound : word < 2 ^ 64) : m.Has a (wordBytes word) ↔ m.load64 a = word := by
  unfold Has
  rw [wordBytes_length]
  refine ⟨load64_wordBytes bound, fun loaded i small => ?_⟩
  rw [wordBytes_getD word small, ← loaded]
  exact (load_div small).symm

end Memory

end BubackOS.Library
