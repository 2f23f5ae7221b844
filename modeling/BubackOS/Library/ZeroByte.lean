import BubackOS.Library.ByteMemory

/-!
# Words with a zero byte

The test of a whole word for a zero byte: one is subtracted from every byte at once, and a
byte that was zero is the lowest one whose highest bit then appears without having been
there before.  Words of any number of bytes are read from memory.
-/

namespace BubackOS.Library

/-- The word whose bytes are all one. -/
def onesWord : Nat → Nat
  | 0 => 0
  | count + 1 => 1 + 256 * onesWord count

/-- The word of the highest bits of all bytes. -/
def highsWord : Nat → Nat
  | 0 => 0
  | count + 1 => 128 + 256 * highsWord count

/-- The bits that tell a zero byte: zero if there is none. -/
def zeroFlags (count word : Nat) : Nat :=
  (word + (256 ^ count - onesWord count)) % 256 ^ count &&& (256 ^ count - 1 - word) &&& highsWord count

theorem onesWord_lt (count : Nat) : onesWord count < 256 ^ count := by
  induction count with
  | zero => decide
  | succ count ih =>
      rw [onesWord, Nat.pow_succ]
      omega

/-- A conjunction is zero when its lowest byte and the rest of it are. -/
theorem and_eq_zero_iff (x y z : Nat) : x &&& y &&& z = 0 ↔
    x % 256 &&& y % 256 &&& z % 256 = 0 ∧ x / 256 &&& y / 256 &&& z / 256 = 0 := by
  have low : (x &&& y &&& z) % 2 ^ 8 = x % 2 ^ 8 &&& y % 2 ^ 8 &&& z % 2 ^ 8 := by
    rw [Nat.and_mod_two_pow, Nat.and_mod_two_pow]
  have high : (x &&& y &&& z) / 2 ^ 8 = x / 2 ^ 8 &&& y / 2 ^ 8 &&& z / 2 ^ 8 := by
    rw [Nat.and_div_two_pow, Nat.and_div_two_pow]
  norm_num only at low high
  rw [← low, ← high]
  omega

/-- The flag of one byte. -/
theorem lowFlag_iff {digit : Nat} (small : digit < 256) :
    (digit + 255) % 256 &&& (255 - digit) &&& 128 = 0 ↔ digit ≠ 0 := by
  have all : ∀ digit : Fin 256, (digit.val + 255) % 256 &&& (255 - digit.val) &&& 128 = 0 ↔ digit.val ≠ 0 := by
    decide +kernel
  exact all ⟨digit, small⟩

theorem zeroFlags_succ {count digit word : Nat} (small : digit < 256) (bound : word < 256 ^ count) :
    zeroFlags (count + 1) (digit + 256 * word) = 0 ↔ digit ≠ 0 ∧ zeroFlags count word = 0 := by
  have ones := onesWord_lt count
  unfold zeroFlags
  rw [and_eq_zero_iff, onesWord, highsWord, Nat.pow_succ]
  generalize 256 ^ count = scale at ones bound ⊢
  generalize onesWord count = one at ones ⊢
  have sum : digit + 256 * word + (scale * 256 - (1 + 256 * one)) =
      digit + 255 + 256 * (word + (scale - one) - 1) := by omega
  have lowDifference : (digit + 256 * word + (scale * 256 - (1 + 256 * one))) % (scale * 256) % 256 =
      (digit + 255) % 256 := by
    rw [Nat.mod_mod_of_dvd _ (Dvd.intro_left scale rfl), sum]
    omega
  have lowRest : (scale * 256 - 1 - (digit + 256 * word)) % 256 = 255 - digit := by omega
  have highRest : (scale * 256 - 1 - (digit + 256 * word)) / 256 = scale - 1 - word := by omega
  have lowHighs : (128 + 256 * highsWord count) % 256 = 128 := by omega
  have highHighs : (128 + 256 * highsWord count) / 256 = highsWord count := by omega
  rw [lowDifference, lowRest, lowHighs, lowFlag_iff small, highRest, highHighs]
  refine and_congr_right fun present => ?_
  -- Without a borrow the bytes above are subtracted from by themselves.
  have highDifference : (digit + 256 * word + (scale * 256 - (1 + 256 * one))) % (scale * 256) / 256 =
      (word + (scale - one)) % scale := by
    have split : digit + 255 + 256 * (word + (scale - one) - 1) = digit - 1 + 256 * (word + (scale - one)) := by omega
    have rest : (digit - 1 + 256 * (word + (scale - one))) / 256 = word + (scale - one) := by omega
    rw [sum, split, Nat.mul_comm scale 256, Nat.mod_mul_right_div_self, rest]
  rw [highDifference]

/-- A word read from memory has no zero byte exactly when no byte there is zero. -/
theorem zeroFlags_load (m : Memory) (addr count : Nat) :
    zeroFlags count (m.load addr count) = 0 ↔ ∀ i < count, m (addr + i) ≠ 0 := by
  induction count generalizing addr with
  | zero => exact ⟨fun _ i small => absurd small (Nat.not_lt_zero i), fun _ => Nat.and_zero _⟩
  | succ count ih =>
      have present : (m addr).toNat ≠ 0 ↔ m addr ≠ 0 := not_congr (UInt8.toNat_inj (b := 0))
      rw [Memory.load, zeroFlags_succ (m addr).toNat_lt (m.load_lt (addr + 1) count), ih, present]
      constructor
      · rintro ⟨first, rest⟩ i small
        cases i with
        | zero => exact first
        | succ i =>
            rw [show addr + (i + 1) = addr + 1 + i by omega]
            exact rest i (by omega)
      · intro all
        refine ⟨all 0 (by omega), fun i small => ?_⟩
        rw [show addr + 1 + i = addr + (i + 1) by omega]
        exact all (i + 1) (by omega)

end BubackOS.Library
