import Mathlib.Data.Nat.Digits.Defs

/-!
# Digits by repeated division

The do-while loop that produces the digits of a number, least significant first: it
makes at least one round, so that zero has a digit.
-/

namespace BubackOS.Library

/-- The digits of `num`, in at most so many rounds. -/
def digitLoop (base : Nat) : Nat → Nat → List Nat
  | 0, _ => []
  | rounds + 1, num => num % base :: if num / base = 0 then [] else digitLoop base rounds (num / base)

/-- With rounds enough the loop gives the digits of the number, and one digit for zero. -/
theorem digitLoop_eq {base : Nat} (large : 1 < base) (rounds : Nat) :
    ∀ num, num < base ^ (rounds + 1) →
      digitLoop base (rounds + 1) num = if num = 0 then [0] else Nat.digits base num := by
  induction rounds with
  | zero =>
      intro num small
      rw [Nat.zero_add, Nat.pow_one] at small
      rw [digitLoop, Nat.div_eq_of_lt small, if_pos rfl, Nat.mod_eq_of_lt small]
      split
      · rename_i zero
        rw [zero]
      · rename_i positive
        rw [Nat.digits_of_lt base num positive small]
  | succ rounds ih =>
      intro num small
      rw [digitLoop]
      by_cases zero : num = 0
      · rw [if_pos zero, zero, Nat.zero_div, if_pos rfl, Nat.zero_mod]
      · rw [if_neg zero, Nat.digits_def' large (Nat.pos_of_ne_zero zero)]
        by_cases last : num / base = 0
        · rw [if_pos last, last, Nat.digits_zero]
        · have smaller : num / base < base ^ (rounds + 1) :=
            Nat.div_lt_of_lt_mul (by rw [Nat.pow_succ'] at small; exact small)
          rw [if_neg last, ih _ smaller, if_neg last]

theorem digitLoop_length (base : Nat) : ∀ rounds num, (digitLoop base rounds num).length ≤ rounds
  | 0, _ => Nat.le_refl 0
  | rounds + 1, num => by
      rw [digitLoop, List.length_cons]
      split
      · exact Nat.succ_le_succ (Nat.zero_le rounds)
      · exact Nat.succ_le_succ (digitLoop_length base rounds _)

end BubackOS.Library
