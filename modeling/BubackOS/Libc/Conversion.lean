import BubackOS.Libc.Rendering
import Mathlib.Data.Nat.Digits.Lemmas

/-!
# `convert` with its work buffer

The first loop of `convert` puts the digits of a number into a buffer on the stack, least
significant first, and the second copies them to the destination the other way round.  The
buffer has one byte for each bit of the number, and no index is checked.
-/

namespace BubackOS.Libc

open Library

/-- `sizeof(num)*8`, the size of the work buffer. -/
def convertBufferSize : Nat := 64

/-- The variables of the first loop, with the indices of `buf` used so far. -/
structure Converter where
  num : Nat
  p : Nat
  buf : Memory
  used : List Nat

/-- One round of the first loop. -/
def Converter.produce (base : Nat) (c : Converter) : Converter where
  num := c.num / base
  p := wrap (c.p + 1)
  buf := fun i => if i = c.p then representation.getD (c.num % base) 0 else c.buf i
  used := c.p :: c.used

/-- The do-while loop; `none` when the rounds were not enough. -/
def produceDigits (base : Nat) : Nat → Converter → Option Converter
  | 0, _ => none
  | rounds + 1, c =>
      if (c.produce base).num ≠ 0 then produceDigits base rounds (c.produce base)
      else some (c.produce base)

/-- The variables of the second loop, with the indices of `dst` written and those of `buf` used. -/
structure Copier where
  i : Nat
  dst : Memory
  writes : List Nat
  used : List Nat

/-- One round of the second loop: `dst[i] = buf[p-i-1]`. -/
def Copier.copy (c : Converter) (s : Copier) : Copier where
  i := wrap (s.i + 1)
  dst := fun j => if j = s.i then c.buf (wrapSub (wrapSub c.p s.i) 1) else s.dst j
  writes := s.i :: s.writes
  used := wrapSub (wrapSub c.p s.i) 1 :: s.used

/-- The second loop; `none` when the rounds were not enough. -/
def copyDigits (c : Converter) (size : Nat) : Nat → Copier → Option Copier
  | 0, _ => none
  | rounds + 1, s =>
      if s.i < c.p ∧ s.i < size then copyDigits c size rounds (s.copy c) else some s

/-- `convert`, on a stack that holds `buf`; what it returns is the cursor of the last state. -/
def convertInto (rounds num base : Nat) (buf dst : Memory) (size : Nat) : Option Copier :=
  if size = 0 then some { i := 0, dst := dst, writes := [], used := [] }
  else
    (produceDigits base rounds { num := num, p := 0, buf := buf, used := [] }).bind fun c =>
      copyDigits c size rounds { i := 0, dst := dst, writes := [], used := c.used }

/-! ## The digits in the buffer -/

/-- The digits of a number in the order of the buffer, as characters. -/
def glyphs (base rounds num : Nat) : List UInt8 :=
  (digitLoop base rounds num).map fun digit => representation.getD digit 0

theorem glyphs_succ (base rounds num : Nat) : glyphs base (rounds + 1) num =
    representation.getD (num % base) 0 :: if num / base = 0 then [] else glyphs base rounds (num / base) := by
  unfold glyphs
  rw [digitLoop, List.map_cons]
  split <;> rfl

/-- What the first loop leaves: the digits behind those that were there, at indices of the buffer. -/
structure Produced (text : List UInt8) (c c' : Converter) : Prop where
  cursor : c'.p = c.p + text.length
  stored : ∀ i, (hi : i < text.length) → c'.buf (c.p + i) = text[i]
  kept : ∀ i < c.p, c'.buf i = c.buf i
  used : ∀ i ∈ c'.used, i ∈ c.used ∨ i < c'.p

theorem Converter.produce_p {c : Converter} (base : Nat) (small : c.p < convertBufferSize) :
    (c.produce base).p = c.p + 1 := wrap_of_lt (by unfold convertBufferSize at small; omega)

/-- A round stores the last digit of the number. -/
theorem Produced.produce {c : Converter} (base : Nat) (small : c.p < convertBufferSize) :
    Produced [representation.getD (c.num % base) 0] c (c.produce base) where
  cursor := Converter.produce_p base small
  stored := by
    intro i inside
    have first : i = 0 := Nat.lt_one_iff.mp inside
    subst first
    exact if_pos rfl
  kept := fun i before => if_neg (Nat.ne_of_lt before)
  used := by
    intro i member
    rw [Converter.produce_p base small]
    rcases List.mem_cons.mp member with rfl | older
    · exact Or.inr (Nat.lt_succ_self _)
    · exact Or.inl older

/-- Rounds after one another store their digits after one another. -/
theorem Produced.trans {first second : List UInt8} {c c' c'' : Converter} (before : Produced first c c')
    (after : Produced second c' c'') : Produced (first ++ second) c c'' where
  cursor := by rw [after.cursor, before.cursor, List.length_append, Nat.add_assoc]
  stored := by
    intro i inside
    by_cases early : i < first.length
    · rw [List.getElem_append_left early, after.kept _ (by rw [before.cursor]; omega)]
      exact before.stored i early
    · have late : i - first.length < second.length := by
        rw [List.length_append] at inside
        omega
      have place : c.p + i = c'.p + (i - first.length) := by
        rw [before.cursor]
        omega
      rw [List.getElem_append_right (Nat.le_of_not_lt early), place]
      exact after.stored _ late
  kept := by
    intro i below
    rw [after.kept i (by rw [before.cursor]; omega), before.kept i below]
  used := by
    intro i member
    rcases after.used i member with middle | new
    · rcases before.used i middle with old | new
      · exact Or.inl old
      · exact Or.inr (by rw [after.cursor]; omega)
    · exact Or.inr new

/-- A number below `base ^ (bound + 1)` takes no more than `bound + 1` rounds. -/
theorem produceDigits_produced {base : Nat} (bound : Nat) : ∀ (rounds : Nat) (c : Converter), bound < rounds →
    c.num < base ^ (bound + 1) → c.p + bound < convertBufferSize →
      ∃ c', produceDigits base rounds c = some c' ∧ Produced (glyphs base (bound + 1) c.num) c c' := by
  induction bound with
  | zero =>
      intro rounds c enough small room
      obtain ⟨rest, rfl⟩ : ∃ rest, rounds = rest + 1 := ⟨rounds - 1, by omega⟩
      rw [Nat.zero_add, Nat.pow_one] at small
      have last : (c.produce base).num = 0 := Nat.div_eq_of_lt small
      refine ⟨c.produce base, if_neg (not_not.mpr last), ?_⟩
      rw [glyphs_succ, if_pos (Nat.div_eq_of_lt small)]
      exact Produced.produce base room
  | succ bound ih =>
      intro rounds c enough small room
      obtain ⟨rest, rfl⟩ : ∃ rest, rounds = rest + 1 := ⟨rounds - 1, by omega⟩
      have round := Produced.produce (c := c) base (by omega)
      rw [glyphs_succ]
      by_cases last : c.num / base = 0
      · rw [if_pos last]
        exact ⟨c.produce base, if_neg (not_not.mpr last), round⟩
      · have smaller : c.num / base < base ^ (bound + 1) :=
          Nat.div_lt_of_lt_mul (by rw [Nat.pow_succ'] at small; exact small)
        obtain ⟨c', result, produced⟩ := ih rest (c.produce base) (by omega) smaller
          (by rw [Converter.produce_p base (by omega)]; omega)
        rw [if_neg last]
        exact ⟨c', (if_pos last).trans result, round.trans produced⟩

/-! ## The digits in the destination -/

/-- A state of the second loop: so far the last bytes of the buffer are copied, each in its place. -/
structure Delivered (c : Converter) (dst : Memory) (s : Copier) : Prop where
  inside : s.i ≤ c.p
  stored : ∀ j < s.i, s.dst j = c.buf (c.p - j - 1)
  kept : ∀ j, s.i ≤ j → s.dst j = dst j
  writes : s.writes.reverse = List.range s.i
  used : ∀ j ∈ s.used, j < c.p

theorem Delivered.copy {c : Converter} {dst : Memory} {s : Copier} (delivered : Delivered c dst s) (more : s.i < c.p)
    (word : c.p ≤ convertBufferSize) : Delivered c dst (s.copy c) := by
  unfold convertBufferSize at word
  have next : (s.copy c).i = s.i + 1 := wrap_of_lt (by omega)
  have left : wrapSub c.p s.i = c.p - s.i := wrapSub_of_le (Nat.le_of_lt more) (by omega)
  have source : wrapSub (wrapSub c.p s.i) 1 = c.p - s.i - 1 := by
    rw [left]
    exact wrapSub_of_le (by omega) (by omega)
  constructor
  · rw [next]
    exact more
  · intro j before
    rw [next] at before
    unfold Copier.copy
    dsimp only
    rw [source]
    split
    · rename_i here
      rw [here]
    · exact delivered.stored j (by omega)
  · intro j behind
    rw [next] at behind
    exact (if_neg (by omega)).trans (delivered.kept j (by omega))
  · have written : (s.copy c).writes.reverse = s.writes.reverse ++ [s.i] := List.reverse_cons
    rw [written, next, delivered.writes, List.range_succ]
  · intro j member
    rcases List.mem_cons.mp member with here | older
    · rw [here, source]
      omega
    · exact delivered.used j older

/-- The second loop stops behind the last digit or at the end of the destination. -/
theorem copyDigits_delivered {c : Converter} {dst : Memory} {size : Nat} (word : c.p ≤ convertBufferSize) :
    ∀ (rounds : Nat) (s : Copier), Delivered c dst s → s.i ≤ size → c.p - s.i < rounds →
      ∃ s', copyDigits c size rounds s = some s' ∧ Delivered c dst s' ∧ s'.i = min c.p size := by
  intro rounds
  induction rounds with
  | zero => exact fun _ _ _ enough => absurd enough (Nat.not_lt_zero _)
  | succ rounds ih =>
      intro s delivered fits enough
      have inside := delivered.inside
      rw [copyDigits]
      by_cases more : s.i < c.p ∧ s.i < size
      · rw [if_pos more]
        have next : (s.copy c).i = s.i + 1 := wrap_of_lt (by unfold convertBufferSize at word; omega)
        exact ih _ (delivered.copy more.1 word) (by rw [next]; exact more.2) (by rw [next]; omega)
      · rw [if_neg more]
        exact ⟨s, rfl, delivered, by omega⟩

/-- The characters a state of the second loop has stored. -/
def Copier.text (s : Copier) : List UInt8 := (List.range s.i).map fun i => s.dst i

theorem Delivered.text_eq {c c₀ : Converter} {dst : Memory} {s : Copier} {text : List UInt8} {size : Nat}
    (delivered : Delivered c dst s) (produced : Produced text c₀ c) (fresh : c₀.p = 0) (stop : s.i = min c.p size) :
    s.text = text.reverse.take size := by
  have length : c.p = text.length := by rw [produced.cursor, fresh, Nat.zero_add]
  refine List.ext_getElem ?_ fun j here there => ?_
  · rw [Copier.text, List.length_map, List.length_range, List.length_take, List.length_reverse, stop, length, Nat.min_comm]
  · have before : j < s.i := by rwa [Copier.text, List.length_map, List.length_range] at here
    have inside : c.p - j - 1 < text.length := by omega
    have stored := produced.stored (c.p - j - 1) inside
    rw [fresh, Nat.zero_add] at stored
    have index : text.length - 1 - j = c.p - j - 1 := by omega
    simp only [Copier.text, List.getElem_map, List.getElem_range, List.getElem_take, List.getElem_reverse, index]
    rw [delivered.stored j before, stored]

/-- What `convert` does to its destination, and where it looks in its buffer. -/
theorem convertInto_convert {num base : Nat} (large : 1 < base) (bound : num < 2 ^ 64) (size : Nat) (buf dst : Memory)
    {rounds : Nat} (enough : convertBufferSize < rounds) :
    ∃ s, convertInto rounds num base buf dst size = some s ∧ (∀ i ∈ s.used, i < convertBufferSize) ∧
      s.text = convert num base size ∧ s.writes.reverse = List.range s.i ∧ ∀ i, s.i ≤ i → s.dst i = dst i := by
  unfold convertInto convert
  by_cases none : size = 0
  · rw [if_pos none, if_pos none]
    exact ⟨_, rfl, fun i member => absurd member List.not_mem_nil, rfl, rfl, fun _ _ => rfl⟩
  · rw [if_neg none, if_neg none]
    have word : num < base ^ (63 + 1) := Nat.lt_of_lt_of_le bound (Nat.pow_le_pow_left large 64)
    have room : 0 + 63 < convertBufferSize := by decide
    obtain ⟨c, result, produced⟩ := produceDigits_produced 63 rounds { num := num, p := 0, buf := buf, used := [] }
      (Nat.lt_trans room enough) word room
    have length : c.p ≤ convertBufferSize := by
      rw [produced.cursor, Nat.zero_add, glyphs, List.length_map]
      exact digitLoop_length base 64 num
    have used : ∀ i ∈ c.used, i < c.p := by
      intro i member
      rcases produced.used i member with old | new
      · exact absurd old List.not_mem_nil
      · exact new
    have start : Delivered c dst { i := 0, dst := dst, writes := [], used := c.used } :=
      ⟨Nat.zero_le _, fun j before => absurd before (Nat.not_lt_zero j), fun _ _ => rfl, rfl, used⟩
    obtain ⟨s, result', delivered, stop⟩ := copyDigits_delivered length rounds _ start (Nat.zero_le size)
      (Nat.lt_of_le_of_lt (Nat.le_trans (Nat.sub_le _ _) length) enough)
    refine ⟨s, ?_, fun i member => Nat.lt_of_lt_of_le (delivered.used i member) length, ?_,
      delivered.writes, delivered.kept⟩
    · rw [result]
      exact result'
    · exact delivered.text_eq produced rfl stop

/-! ## Reading a numeral -/

/-- The digit a character stands for. -/
def digitValue (c : UInt8) : Nat := representation.idxOf c

/-- The number a text stands for. -/
def readNumeral (base : Nat) (text : List UInt8) : Nat :=
  text.foldl (fun value c => value * base + digitValue c) 0

theorem digitValue_digitByte {digit : Nat} (small : digit < 16) : digitValue (digitByte digit) = digit := by
  decide +revert

/-- The digits of the canonical numeral. -/
theorem numeral_eq {base num : Nat} : numeral base num =
    ((if num = 0 then [0] else Nat.digits base num).map digitByte).reverse := by
  unfold numeral
  split
  · rfl
  · exact List.map_reverse

theorem readNumeral_digits {base : Nat} (digits : List Nat) (small : ∀ digit ∈ digits, digit < 16) :
    readNumeral base (digits.map digitByte).reverse = Nat.ofDigits base digits := by
  unfold readNumeral
  rw [List.foldl_reverse]
  induction digits with
  | nil => rfl
  | cons digit rest ih =>
      rw [List.map_cons, List.foldr_cons, ih fun d member => small d (List.mem_cons_of_mem _ member),
        digitValue_digitByte (small digit List.mem_cons_self), Nat.ofDigits_cons, Nat.mul_comm, Nat.add_comm]

theorem readNumeral_numeral {base : Nat} (large : 1 < base) (small : base ≤ 16) (num : Nat) :
    readNumeral base (numeral base num) = num := by
  rw [numeral_eq]
  by_cases zero : num = 0
  · rw [if_pos zero, readNumeral_digits [0] (by decide), Nat.ofDigits_singleton, zero]
  · rw [if_neg zero, readNumeral_digits _ fun digit member => Nat.lt_of_lt_of_le (Nat.digits_lt_base large member) small,
      Nat.ofDigits_digits]

theorem numeral_length {base : Nat} (large : 1 < base) (num : Nat) :
    (numeral base num).length = Nat.log base num + 1 := by
  rw [numeral_eq, List.length_reverse, List.length_map]
  by_cases zero : num = 0
  · rw [if_pos zero, zero, Nat.log_zero_right]
    rfl
  · rw [if_neg zero, Nat.length_digits base num large zero]

theorem digitByte_eq_zero {digit : Nat} (small : digit < 16) : digitByte digit = byte '0' → digit = 0 := by
  decide +revert

/-- Only zero has a numeral that starts with a zero. -/
theorem numeral_head {base num : Nat} (large : 1 < base) (small : base ≤ 16)
    (leading : (numeral base num).head? = some (byte '0')) : num = 0 := by
  by_contra nonzero
  have digits : Nat.digits base num ≠ [] := Nat.digits_ne_nil_iff_ne_zero.mpr nonzero
  have last := Nat.getLast_digit_ne_zero base nonzero
  have bound := Nat.digits_lt_base large (List.getLast_mem digits)
  rw [numeral_eq, if_neg nonzero, List.head?_reverse, List.getLast?_map, List.getLast?_eq_some_getLast digits,
    Option.map_some] at leading
  exact last (digitByte_eq_zero (Nat.lt_of_lt_of_le bound small) (Option.some.inj leading))

/-- `convert` stores the first characters of the canonical numeral, as many as there is room for, says
how many, and stays inside its buffer. -/
theorem convert_stores_numeral (num : UInt64) {base : Nat} (large : 2 ≤ base) (small : base ≤ 16) (size : Nat)
    (buf dst : Memory) {rounds : Nat} (enough : convertBufferSize < rounds) :
    ∃ s, convertInto rounds num.toNat base buf dst size = some s ∧
      (∀ i ∈ s.used, i < convertBufferSize) ∧
      (numeral base num.toNat).length = Nat.log base num.toNat + 1 ∧
      asInt s.i = (min (numeral base num.toNat).length size : Nat) ∧
      s.writes.reverse = List.range (min (numeral base num.toNat).length size) ∧
      (List.range (min (numeral base num.toNat).length size)).map (fun i => s.dst i) =
        (numeral base num.toNat).take size ∧
      (∀ i, min (numeral base num.toNat).length size ≤ i → s.dst i = dst i) ∧
      ((numeral base num.toNat).head? = some (byte '0') → num = 0) ∧
      ((numeral base num.toNat).length ≤ size →
        readNumeral base ((List.range (min (numeral base num.toNat).length size)).map fun i => s.dst i) =
          num.toNat) := by
  have bound : num.toNat < 2 ^ 64 := num.toNat_lt
  obtain ⟨s, result, used, text, writes, kept⟩ := convertInto_convert large bound size buf dst enough
  have count := numeral_length large num.toNat
  have digits : Nat.log base num.toNat < 64 := by
    rcases Nat.eq_zero_or_pos num.toNat with zero | positive
    · rw [zero, Nat.log_zero_right]
      decide
    · exact Nat.log_lt_of_lt_pow (Nat.ne_of_gt positive) (Nat.lt_of_lt_of_le bound (Nat.pow_le_pow_left large 64))
  have stored : s.text = (numeral base num.toNat).take size := text.trans (convert_eq large small bound size)
  have cursor : s.i = min (numeral base num.toNat).length size := by
    have length := congrArg List.length stored
    rwa [Copier.text, List.length_map, List.length_range, List.length_take, Nat.min_comm] at length
  rw [Copier.text, cursor] at stored
  rw [cursor] at writes kept
  refine ⟨s, result, used, count, ?_, writes, stored, kept, fun leading => ?_, fun room => ?_⟩
  · rw [cursor]
    exact asInt_eq_iff.mpr (by omega)
  · exact UInt64.toNat_inj.mp (numeral_head large small leading)
  · rw [stored, List.take_of_length_le room]
    exact readNumeral_numeral large small num.toNat

/-- One character of `FF`. -/
theorem convert_stores_numeral_hexadecimal :
    ∃ s, convertInto 65 255 16 (fun _ => 0) (fun _ => 0) 1 = some s ∧ asInt s.i = 1 ∧ s.dst 0 = byte 'F' := by
  have text : numeral 16 255 = [byte 'F', byte 'F'] := by
    simp [numeral, digitByte, byte]
  obtain ⟨s, result, -, -, returned, -, stored, -⟩ :=
    convert_stores_numeral 255 (by decide : 2 ≤ 16) (Nat.le_refl 16) 1 (fun _ => 0) (fun _ => 0)
      (by decide : convertBufferSize < 65)
  have value : (255 : UInt64).toNat = 255 := rfl
  rw [value, text] at returned stored
  exact ⟨s, result, returned, List.cons.inj stored |>.1⟩

end BubackOS.Libc
