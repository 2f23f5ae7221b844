import Mathlib.Data.Nat.Basic
import Mathlib.Tactic.Ring

/-!
# Byte-addressed memory

A total memory of bytes with little-endian 64-bit loads and stores and a range
fill.  Nothing here depends on a particular program: the lemmas say which bytes
an operation determines and that every other byte is kept.
-/

namespace BubackOS.Library

/-- A memory gives a byte for every address. -/
def Memory : Type := Nat → UInt8

namespace Memory

/-- The little-endian value of the `count` bytes from `addr` on. -/
def load (m : Memory) : Nat → Nat → Nat
  | _, 0 => 0
  | addr, count + 1 => (m addr).toNat + 256 * load m (addr + 1) count

/-- The little-endian 64-bit word at `addr`. -/
def load64 (m : Memory) (addr : Nat) : Nat := m.load addr 8

/-- Store the low 64 bits of `word` at `addr`, least significant byte first. -/
def store64 (m : Memory) (addr word : Nat) : Memory := fun a =>
  if addr ≤ a ∧ a < addr + 8 then UInt8.ofNat (word / 256 ^ (a - addr)) else m a

/-- Store one byte. -/
def storeByte (m : Memory) (addr : Nat) (byte : UInt8) : Memory := fun a => if a = addr then byte else m a

/-- Set the `size` bytes from `addr` on to zero. -/
def clear (m : Memory) (addr size : Nat) : Memory := fun a =>
  if addr ≤ a ∧ a < addr + size then 0 else m a

/-- Copy the `size` bytes from `source` on to `target`. -/
def copy (m : Memory) (target source size : Nat) : Memory := fun a =>
  if target ≤ a ∧ a < target + size then m (source + (a - target)) else m a

/-- The bytes from `addr` up to `addr + size` are zero. -/
def Zeroed (m : Memory) (addr size : Nat) : Prop :=
  ∀ a, addr ≤ a → a < addr + size → m a = 0

/-- A load reads only its own bytes. -/
theorem load_congr {m m' : Memory} {addr count : Nat}
    (same : ∀ a, addr ≤ a → a < addr + count → m' a = m a) :
    m'.load addr count = m.load addr count := by
  induction count generalizing addr with
  | zero => rfl
  | succ count ih =>
      have head := same addr (Nat.le_refl _) (by omega)
      have tail : m'.load (addr + 1) count = m.load (addr + 1) count :=
        ih fun a low high => same a (by omega) (by omega)
      simp only [load, head, tail]

theorem load64_congr {m m' : Memory} {addr : Nat}
    (same : ∀ a, addr ≤ a → a < addr + 8 → m' a = m a) : m'.load64 addr = m.load64 addr :=
  load_congr same

theorem load_lt (m : Memory) (addr count : Nat) : m.load addr count < 256 ^ count := by
  induction count generalizing addr with
  | zero => exact Nat.zero_lt_one
  | succ count ih =>
      have rest := ih (addr + 1)
      have byte := (m addr).toNat_lt
      rw [load, Nat.pow_succ]
      omega

/-- Bytes that are the base-256 digits of a number load as that number. -/
theorem load_digits {m : Memory} {addr count word : Nat}
    (digits : ∀ i, i < count → m (addr + i) = UInt8.ofNat (word / 256 ^ i)) :
    m.load addr count = word % 256 ^ count := by
  induction count generalizing addr word with
  | zero => simp [load, Nat.mod_one]
  | succ count ih =>
      have head : (m addr).toNat = word % 256 := by
        have first := digits 0 (by omega)
        simp only [Nat.add_zero, Nat.pow_zero, Nat.div_one] at first
        simp [first]
      have tail : m.load (addr + 1) count = word / 256 % 256 ^ count := by
        apply ih
        intro i bound
        have next := digits (i + 1) (by omega)
        rw [show addr + 1 + i = addr + (i + 1) by omega, next, Nat.div_div_eq_div_mul, Nat.pow_succ,
          Nat.mul_comm]
      rw [load, head, tail, Nat.pow_succ, Nat.mul_comm (256 ^ count) 256, Nat.mod_mul]

/-- The bytes of a loaded word. -/
theorem load_div {m : Memory} {addr count i : Nat} (small : i < count) :
    UInt8.ofNat (m.load addr count / 256 ^ i) = m (addr + i) := by
  induction i generalizing addr count with
  | zero =>
      obtain ⟨count, rfl⟩ := Nat.exists_eq_succ_of_ne_zero (Nat.ne_of_gt small)
      have first : m.load addr (count + 1) % 2 ^ 8 = (m addr).toNat := by
        have byte := (m addr).toNat_lt
        rw [load]
        omega
      rw [Nat.pow_zero, Nat.div_one, Nat.add_zero, ← UInt8.ofNat_mod_size]
      exact (congrArg UInt8.ofNat first).trans UInt8.ofNat_toNat
  | succ i ih =>
      obtain ⟨count, rfl⟩ := Nat.exists_eq_succ_of_ne_zero (Nat.ne_of_gt (Nat.zero_lt_of_lt small))
      have rest : m.load addr (count + 1) / 256 = m.load (addr + 1) count := by
        have byte := (m addr).toNat_lt
        rw [load]
        omega
      rw [Nat.pow_succ', ← Nat.div_div_eq_div_mul, Nat.succ_eq_add_one, rest, ih (Nat.lt_of_succ_lt_succ small)]
      congr 1
      omega

theorem load_zeroed {m : Memory} {addr count : Nat} (zero : m.Zeroed addr count) :
    m.load addr count = 0 := by
  have digits : m.load addr count = 0 % 256 ^ count := load_digits fun i bound => by
    rw [zero (addr + i) (by omega) (by omega)]
    simp
  simpa using digits

theorem store64_outside {m : Memory} {addr word a : Nat} (outside : a < addr ∨ addr + 8 ≤ a) :
    m.store64 addr word a = m a :=
  if_neg (by omega)

theorem clear_zeroed (m : Memory) (addr size : Nat) : (m.clear addr size).Zeroed addr size :=
  fun _ low high => if_pos ⟨low, high⟩

/-- A word is read back as it was stored. -/
theorem load64_store64_self {m : Memory} {addr word : Nat} (bound : word < 2 ^ 64) :
    (m.store64 addr word).load64 addr = word := by
  have digits : (m.store64 addr word).load addr 8 = word % 256 ^ 8 :=
    load_digits fun i small => by simp [store64, small]
  rw [load64, digits]
  exact Nat.mod_eq_of_lt (by omega)

theorem Zeroed.mono {m : Memory} {addr size addr' size' : Nat} (zero : m.Zeroed addr size)
    (low : addr ≤ addr') (high : addr' + size' ≤ addr + size) : m.Zeroed addr' size' :=
  fun a low' high' => zero a (by omega) (by omega)

end Memory
end BubackOS.Library
