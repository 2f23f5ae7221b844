import BubackOS.Library.ZeroByte
import BubackOS.Libutils.Words

/-!
# Strings

`strlen` and `strncpy` of `libc/src/string.c`, which go through memory a word at a time.
A loop that only a NUL ends has a number of rounds; the loops of `strncpy` count `n` down.
-/

namespace BubackOS.Libc

open Library

/-! ## The functions -/

/-- `ONES`. -/
def ones : Nat := (2 ^ 64 - 1) / 255

/-- `HIGHS`. -/
def highs : Nat := ones * (255 / 2 + 1)

/-- `HASZERO`. -/
def hasZero (x : Nat) : Nat := wrapSub x ones &&& (2 ^ 64 - 1 - x) &&& highs

/-- The first loop of `strlen`: up to the next whole word, unless a NUL comes first.  It takes at most
seven rounds. -/
def alignLoop (m : Memory) : Nat → Nat → Bool × Nat
  | 0, s => (false, s)
  | rounds + 1, s =>
      if s % 8 = 0 then (false, s) else if m s = 0 then (true, s) else alignLoop m rounds (wrap (s + 1))

/-- The second loop: to a word with a NUL. -/
def wordLoop (m : Memory) : Nat → Nat → Option Nat
  | 0, _ => none
  | rounds + 1, w => if hasZero (m.load64 w) ≠ 0 then some w else wordLoop m rounds (wrap (w + 8))

/-- The third loop: to the NUL. -/
def byteLoop (m : Memory) : Nat → Nat → Option Nat
  | 0, _ => none
  | rounds + 1, s => if m s = 0 then some s else byteLoop m rounds (wrap (s + 1))

/-- `strlen`. -/
def strlen (rounds : Nat) (m : Memory) (s : Nat) : Option Nat :=
  let aligned := alignLoop m 8 s
  if aligned.1 then some (wrapSub aligned.2 s)
  else (wordLoop m rounds aligned.2).bind fun w => (byteLoop m rounds w).map fun found => wrapSub found s

/-- The variables of `strncpy`, and memory. -/
structure Copying where
  d : Nat
  s : Nat
  n : Nat
  m : Memory

namespace Copying

/-- The loops over single bytes: the NUL is stored before it ends the loop. -/
def copyBytes (go : Nat → Bool) : Nat → Nat → Nat → Memory → Copying
  | 0, d, s, m => { d := d, s := s, n := 0, m := m }
  | n + 1, d, s, m =>
      if go s then
        if m s = 0 then { d := d, s := s, n := n + 1, m := m.storeByte d (m s) }
        else copyBytes go n (wrap (d + 1)) (wrap (s + 1)) (m.storeByte d (m s))
      else { d := d, s := s, n := n + 1, m := m }

/-- `*wd = *ws`, and on to the next word. -/
def copyWord (c : Copying) : Copying where
  d := wrap (c.d + 8)
  s := wrap (c.s + 8)
  n := c.n - 8
  m := c.m.store64 c.d (c.m.load64 c.s)

/-- The loop over words; it can go on while `n / 8` is not zero. -/
def copyWords : Nat → Copying → Copying
  | 0, c => c
  | words + 1, c => if hasZero (c.m.load64 c.s) ≠ 0 then c else copyWords words c.copyWord

/-- `tail`: the rest of the `n` bytes is zeroed. -/
def tail (c : Copying) : Nat × Memory := (c.d, c.m.clear c.d c.n)

end Copying

/-- `strncpy`.  The pointers are compared by the bit that `ALIGN` is, not by their distance to a word. -/
def strncpy (m : Memory) (d s n : Nat) : Nat × Memory :=
  if s &&& 8 = d &&& 8 then
    let aligned := Copying.copyBytes (fun s => s &&& 8 ≠ 0) n d s m
    if aligned.n = 0 ∨ aligned.m aligned.s = 0 then aligned.tail
    else
      let words := Copying.copyWords (aligned.n / 8) aligned
      (Copying.copyBytes (fun _ => true) words.n words.d words.s words.m).tail
  else (Copying.copyBytes (fun _ => true) n d s m).tail

/-- The loop of `strncmp`. -/
def compareLoop (m : Memory) : Nat → Nat → Nat → Nat × Nat
  | 0, l, r => (l, r)
  | n + 1, l, r =>
      if m l ≠ 0 ∧ m r ≠ 0 ∧ m l = m r then compareLoop m n (wrap (l + 1)) (wrap (r + 1)) else (l, r)

/-- `strncmp`. -/
def strncmp (m : Memory) (l r n : Nat) : Int :=
  if n = 0 then 0
  else
    let stop := compareLoop m (n - 1) l r
    (m stop.1).toNat - (m stop.2).toNat

/-- `memcpy`: from the first byte to the last. -/
def memcpy (m : Memory) : Nat → Nat → Nat → Memory
  | _, _, 0 => m
  | d, s, len + 1 => memcpy (m.storeByte d (m s)) (wrap (d + 1)) (wrap (s + 1)) len

/-! ## Strings in memory -/

/-- The bytes from an address on are these, and a NUL. -/
def Spells (m : Memory) : Nat → List UInt8 → Prop
  | s, [] => m s = 0
  | s, x :: rest => m s = x ∧ x ≠ 0 ∧ Spells m (s + 1) rest

instance decidableSpells (m : Memory) : ∀ s text, Decidable (Spells m s text)
  | s, [] => inferInstanceAs (Decidable (m s = 0))
  | s, x :: rest =>
      have := decidableSpells m (s + 1) rest
      inferInstanceAs (Decidable (m s = x ∧ x ≠ 0 ∧ Spells m (s + 1) rest))

variable {m m' : Memory} {text : List UInt8}

theorem Spells.terminated : ∀ {s : Nat} {text : List UInt8}, Spells m s text → m (s + text.length) = 0
  | _, [], spells => spells
  | s, _ :: rest, ⟨_, _, spells⟩ => by
      rw [List.length_cons, show s + (rest.length + 1) = s + 1 + rest.length by omega]
      exact spells.terminated

theorem Spells.present : ∀ {s : Nat} {text : List UInt8}, Spells m s text → ∀ i < text.length, m (s + i) ≠ 0
  | _, [], _, i, small => absurd small (Nat.not_lt_zero i)
  | _, _ :: _, ⟨first, nonzero, _⟩, 0, _ => fun zero => nonzero (first.symm.trans zero)
  | s, _ :: _, ⟨_, _, spells⟩, i + 1, small => by
      rw [show s + (i + 1) = s + 1 + i by omega]
      exact spells.present i (Nat.lt_of_succ_lt_succ small)

/-- A string is moved with its bytes. -/
theorem Spells.moved : ∀ {s s' : Nat} {text : List UInt8}, Spells m s text →
    (∀ i ≤ text.length, m' (s' + i) = m (s + i)) → Spells m' s' text
  | _, _, [], spells, same => (same 0 (Nat.le_refl 0)).trans spells
  | s, s', x :: rest, ⟨first, nonzero, spells⟩, same => by
      refine ⟨(same 0 (Nat.zero_le _)).trans first, nonzero, spells.moved fun i bound => ?_⟩
      rw [show s' + 1 + i = s' + (i + 1) by omega, show s + 1 + i = s + (i + 1) by omega]
      exact same (i + 1) (Nat.succ_le_succ bound)

/-- The bytes of a string, copied before a zero. -/
theorem Spells.copy {d s : Nat} (spells : Spells m s text) (zero : m (d + text.length) = 0) :
    Spells (m.copy d s text.length) d text := by
  refine spells.moved fun i bound => ?_
  by_cases inside : i < text.length
  · have copied : m.copy d s text.length (d + i) = m (s + (d + i - d)) := if_pos (by omega)
    rw [copied, Nat.add_sub_cancel_left]
  · have last : i = text.length := by omega
    have kept : m.copy d s text.length (d + i) = m (d + i) := if_neg (by omega)
    rw [kept, last, zero, spells.terminated]

/-- A string in memory. -/
def cstring (text : List UInt8) : Memory := fun i => text.getD i 0

theorem spells_drop {text : List UInt8} (terminated : 0 ∉ text) (rest : List UInt8) :
    ∀ i, text.drop i = rest → Spells (cstring text) i rest := by
  induction rest with
  | nil =>
      intro i isRest
      unfold Spells cstring
      rw [List.getD_eq_getElem?_getD, List.getElem?_eq_none (List.drop_eq_nil_iff.mp isRest)]
      rfl
  | cons x rest ih =>
      intro i isRest
      have found : text[i]? = some x := by rw [← List.head?_drop, isRest]; rfl
      refine ⟨?_, fun zero => terminated (zero ▸ List.mem_of_getElem? found), ih (i + 1) ?_⟩
      · unfold cstring
        rw [List.getD_eq_getElem?_getD, found]
        rfl
      · rw [← List.drop_drop, isRest]
        rfl

theorem spells_cstring {text : List UInt8} (terminated : 0 ∉ text) : Spells (cstring text) 0 text :=
  spells_drop terminated text 0 rfl

/-! ## Words -/

theorem hasZero_eq (x : Nat) : hasZero x = zeroFlags 8 x := by
  unfold hasZero wrapSub zeroFlags
  congr 1

theorem hasZero_load64 (s : Nat) : hasZero (m.load64 s) = 0 ↔ ∀ i < 8, m (s + i) ≠ 0 := by
  rw [hasZero_eq, Memory.load64, zeroFlags_load]

/-! ## `strlen` -/

section Length

variable {s length : Nat} (bound : s + length < 2 ^ 64) (zero : m (s + length) = 0)

include bound zero

theorem wordLoop_spec (rounds : Nat) : ∀ i ≤ length, length - i < 8 * rounds →
    ∃ j ≤ length, wordLoop m rounds (s + i) = some (s + j) := by
  induction rounds with
  | zero => exact fun i before enough => absurd enough (Nat.not_lt_zero _)
  | succ rounds ih =>
      intro i before enough
      unfold wordLoop
      split
      · exact ⟨i, before, rfl⟩
      · rename_i missing
        have all := (hasZero_load64 (s + i)).mp (not_not.mp missing)
        have later : i + 8 ≤ length := by
          by_contra near
          refine all (length - i) (by omega) ?_
          rw [show s + i + (length - i) = s + length by omega]
          exact zero
        rw [wrap_of_lt (by omega), show s + i + 8 = s + (i + 8) by omega]
        exact ih (i + 8) later (by omega)

variable (present : ∀ i < length, m (s + i) ≠ 0)

include present

/-- From a place before the NUL the first loop reaches one before the NUL, or the NUL. -/
theorem alignLoop_spec (rounds : Nat) : ∀ i ≤ length,
    alignLoop m rounds (s + i) = (true, s + length) ∨ ∃ j ≤ length, alignLoop m rounds (s + i) = (false, s + j) := by
  induction rounds with
  | zero => exact fun i before => Or.inr ⟨i, before, rfl⟩
  | succ rounds ih =>
      intro i before
      unfold alignLoop
      split
      · exact Or.inr ⟨i, before, rfl⟩
      · split
        · rename_i found
          have there : i = length := by
            by_contra other
            exact present i (by omega) found
          exact Or.inl (by rw [there])
        · rename_i missing
          have other : i ≠ length := fun same => missing (same ▸ zero)
          rw [wrap_of_lt (by omega), show s + i + 1 = s + (i + 1) by omega]
          exact ih (i + 1) (by omega)

theorem byteLoop_spec (rounds : Nat) : ∀ i ≤ length, length - i < rounds →
    byteLoop m rounds (s + i) = some (s + length) := by
  induction rounds with
  | zero => exact fun i before enough => absurd enough (Nat.not_lt_zero _)
  | succ rounds ih =>
      intro i before enough
      unfold byteLoop
      by_cases there : i = length
      · rw [there, if_pos zero]
      · rw [if_neg (present i (by omega)), wrap_of_lt (by omega), show s + i + 1 = s + (i + 1) by omega]
        exact ih (i + 1) (by omega) (by omega)

end Length

/-- `strlen` finds the first NUL, in rounds enough. -/
theorem strlen_first {s length rounds : Nat} (bound : s + length < 2 ^ 64) (zero : m (s + length) = 0)
    (present : ∀ i < length, m (s + i) ≠ 0) (enough : length < rounds) : strlen rounds m s = some length := by
  have distance : wrapSub (s + length) s = length := by
    rw [wrapSub_of_le (Nat.le_add_right _ _) bound, Nat.add_sub_cancel_left]
  unfold strlen
  dsimp only
  rcases alignLoop_spec bound zero present 8 0 (Nat.zero_le _) with found | ⟨i, before, aligned⟩
  · rw [Nat.add_zero] at found
    rw [found, if_pos rfl, distance]
  · rw [Nat.add_zero] at aligned
    obtain ⟨j, before', word⟩ := wordLoop_spec bound zero rounds i before (by omega)
    rw [aligned, if_neg Bool.false_ne_true, word, Option.bind_some,
      byteLoop_spec bound zero present rounds j before' (by omega), Option.map_some, distance]

/-- `strlen` finds the length of every string, in rounds enough. -/
theorem strlen_eq {s rounds : Nat} (spells : Spells m s text) (bound : s + text.length < 2 ^ 64)
    (enough : text.length < rounds) : strlen rounds m s = some text.length :=
  strlen_first bound spells.terminated spells.present enough

/-! ### `strlen` returns

The loops go around the whole memory, so that one NUL anywhere ends them. -/

theorem byteLoop_mono {s found : Nat} : ∀ {rounds more : Nat}, rounds ≤ more → byteLoop m rounds s = some found →
    byteLoop m more s = some found := by
  intro rounds
  induction rounds generalizing s with
  | zero => exact fun _ absent => by cases absent
  | succ rounds ih =>
      intro more enough result
      obtain ⟨more, rfl⟩ : ∃ n, more = n + 1 := ⟨more - 1, by omega⟩
      unfold byteLoop at result ⊢
      split
      · rename_i zero
        rw [if_pos zero] at result
        exact result
      · rename_i other
        rw [if_neg other] at result
        exact ih (Nat.le_of_succ_le_succ enough) result

theorem wordLoop_mono {w found : Nat} : ∀ {rounds more : Nat}, rounds ≤ more → wordLoop m rounds w = some found →
    wordLoop m more w = some found := by
  intro rounds
  induction rounds generalizing w with
  | zero => exact fun _ absent => by cases absent
  | succ rounds ih =>
      intro more enough result
      obtain ⟨more, rfl⟩ : ∃ n, more = n + 1 := ⟨more - 1, by omega⟩
      unfold wordLoop at result ⊢
      split
      · rename_i zero
        rw [if_pos zero] at result
        exact result
      · rename_i other
        rw [if_neg other] at result
        exact ih (Nat.le_of_succ_le_succ enough) result

theorem strlen_mono {s length rounds more : Nat} (enough : rounds ≤ more) (result : strlen rounds m s = some length) :
    strlen more m s = some length := by
  unfold strlen at result ⊢
  dsimp only at result ⊢
  split
  · rename_i found
    rw [if_pos found] at result
    exact result
  · rename_i missing
    rw [if_neg missing] at result
    obtain ⟨w, word, result⟩ := Option.bind_eq_some_iff.mp result
    obtain ⟨found, byte, result⟩ := Option.map_eq_some_iff.mp result
    rw [wordLoop_mono enough word, Option.bind_some, byteLoop_mono enough byte, Option.map_some, result]

/-! ## `strncpy` -/

section Copy

variable {d s n stop i : Nat} {c : Copying}

/-- After `i` of the `n` bytes; what the rest of the target holds does not matter. -/
structure Copied (m : Memory) (d s n i : Nat) (c : Copying) : Prop where
  target : c.d = wrap (d + i)
  source : c.s = s + i
  left : c.n = n - i
  memory : ∀ a, a < d + i ∨ d + n ≤ a → c.m a = m.copy d s i a

theorem Copied.start (small : d < 2 ^ 64) : Copied m d s n 0 { d := d, s := s, n := n, m := m } :=
  ⟨(wrap_of_lt small).symm, rfl, rfl, fun a _ => (if_neg (by omega)).symm⟩

-- The bytes up to `stop` are copied: there is a NUL there, or all `n` have been.
variable (short : stop ≤ n) (ends : stop < n → m (s + stop) = 0) (present : ∀ i < stop, m (s + i) ≠ 0)
  (apart : ∀ i ≤ stop, i < n → s + i < d ∨ d + n ≤ s + i)
  (targets : d + n ≤ 2 ^ 64) (sources : s + stop < 2 ^ 64)

theorem Copied.tail (copied : Copied m d s n stop c) (short : stop ≤ n) (targets : d + n ≤ 2 ^ 64) :
    c.tail = (wrap (d + stop), (m.copy d s stop).clear (d + stop) (n - stop)) := by
  rw [Copying.tail, copied.target, copied.left]
  congr 1
  funext a
  by_cases all : stop = n
  · rw [all, Nat.sub_self]
    unfold Memory.clear
    rw [if_neg (by omega), if_neg (by omega), copied.memory a (by omega), all]
  · rw [wrap_of_lt (by omega)]
    unfold Memory.clear
    by_cases rest : d + stop ≤ a ∧ a < d + stop + (n - stop)
    · rw [if_pos rest, if_pos rest]
    · rw [if_neg rest, if_neg rest]
      exact copied.memory a (by omega)

include apart in
theorem Copied.load (copied : Copied m d s n i c) {j : Nat} (within : i + j ≤ stop) (before : i + j < n) :
    c.m (c.s + j) = m (s + i + j) := by
  have place := apart (i + j) within before
  rw [copied.source, copied.memory _ (by omega)]
  exact if_neg (by omega)

include short apart targets sources in
theorem Copied.copyWord (copied : Copied m d s n i c) (within : i + 8 ≤ stop) :
    Copied m d s n (i + 8) c.copyWord := by
  have target : c.d = d + i := copied.target.trans (wrap_of_lt (by omega))
  refine ⟨?_, ?_, ?_, fun a outside => ?_⟩
  · rw [Copying.copyWord, target, Nat.add_assoc]
  · rw [Copying.copyWord, copied.source]
    exact wrap_of_lt (by omega)
  · rw [Copying.copyWord, copied.left]
    exact Nat.sub_sub n i 8
  · rw [Copying.copyWord, target]
    unfold Memory.store64 Memory.copy
    dsimp only
    by_cases here : d + i ≤ a ∧ a < d + i + 8
    · rw [if_pos here, if_pos (by omega), Memory.load64, Memory.load_div (by omega),
        copied.load apart (by omega) (by omega)]
      congr 1
      omega
    · rw [if_neg here, copied.memory a (by omega)]
      unfold Memory.copy
      by_cases before : d ≤ a ∧ a < d + i
      · rw [if_pos before, if_pos (by omega)]
      · rw [if_neg before, if_neg (by omega)]

include short present apart targets sources

/-- One byte further. -/
theorem Copied.copyByte (copied : Copied m d s n i c) (more : i < stop) :
    c.m c.s ≠ 0 ∧
      Copied m d s n (i + 1)
        { d := wrap (c.d + 1), s := wrap (c.s + 1), n := c.n - 1, m := c.m.storeByte c.d (c.m c.s) } := by
  have target : c.d = d + i := copied.target.trans (wrap_of_lt (by omega))
  have byte : c.m c.s = m (s + i) := copied.load apart (j := 0) (by omega) (by omega)
  refine ⟨by rw [byte]; exact present i more, ?_, ?_, ?_, fun a outside => ?_⟩
  · rw [target, Nat.add_assoc]
  · rw [copied.source]
    exact wrap_of_lt (by omega)
  · rw [copied.left]
    exact Nat.sub_sub n i 1
  · rw [target, byte]
    unfold Memory.storeByte Memory.copy
    dsimp only
    by_cases here : a = d + i
    · rw [if_pos here, if_pos (by omega), here, Nat.add_sub_cancel_left]
    · rw [if_neg here, copied.memory a (by omega)]
      unfold Memory.copy
      by_cases before : d ≤ a ∧ a < d + i
      · rw [if_pos before, if_pos (by omega)]
      · rw [if_neg before, if_neg (by omega)]

include ends

/-- A loop over bytes copies as long as it may go on, at most up to the NUL. -/
theorem copyBytes_spec (go : Nat → Bool) (left : Nat) : ∀ {i : Nat} {c : Copying}, Copied m d s n i c → i ≤ stop →
    c.n = left → ∃ j ≤ stop, Copied m d s n j (Copying.copyBytes go left c.d c.s c.m) ∧
      ((∀ a, go a = true) → j = stop) := by
  induction left with
  | zero =>
      intro i c copied within none
      have left := copied.left
      exact ⟨i, within, ⟨copied.target, copied.source, none.symm.trans left, copied.memory⟩, fun _ => by omega⟩
  | succ left ih =>
      intro i c copied within some
      have isLeft := copied.left
      unfold Copying.copyBytes
      split
      · by_cases more : i < stop
        · obtain ⟨nonzero, next⟩ := copied.copyByte short present apart targets sources more
          rw [if_neg nonzero]
          exact ih next more (by dsimp only; omega)
        · -- The NUL is stored before the loop ends.
          obtain rfl : i = stop := by omega
          have byte : c.m c.s = 0 := (copied.load apart (j := 0) (by omega) (by omega)).trans (ends (by omega))
          rw [if_pos byte]
          refine ⟨i, within, ⟨copied.target, copied.source, by dsimp only; omega, fun a outside => ?_⟩, fun _ => rfl⟩
          have target : c.d = d + i := copied.target.trans (wrap_of_lt (by omega))
          rw [← copied.memory a outside]
          exact if_neg (by omega)
      · rename_i refused
        exact ⟨i, within, ⟨copied.target, copied.source, by dsimp only; omega, copied.memory⟩,
          fun always => absurd (always _) refused⟩

omit present in
/-- The loop over words stops at the latest before the word with the NUL. -/
theorem copyWords_spec (words : Nat) : ∀ {i : Nat} {c : Copying}, Copied m d s n i c → i ≤ stop →
    i + 8 * words ≤ n → ∃ j ≤ stop, Copied m d s n j (Copying.copyWords words c) := by
  induction words with
  | zero => exact fun {i c} copied within _ => ⟨i, within, copied⟩
  | succ words ih =>
      intro i c copied within room
      unfold Copying.copyWords
      split
      · exact ⟨i, within, copied⟩
      · rename_i nonzero
        have bytes := (hasZero_load64 c.s).mp (not_not.mp nonzero)
        have whole : i + 8 ≤ stop := by
          by_contra nul
          refine bytes (stop - i) (by omega) ?_
          rw [copied.load apart (by omega) (by omega), show s + i + (stop - i) = s + stop by omega]
          exact ends (by omega)
        exact ih (copied.copyWord short apart targets sources whole) whole (by omega)

/-- The last loop copies what is left. -/
theorem Copied.finish (copied : Copied m d s n i c) (within : i ≤ stop) :
    (Copying.copyBytes (fun _ => true) c.n c.d c.s c.m).tail =
      (wrap (d + stop), (m.copy d s stop).clear (d + stop) (n - stop)) := by
  obtain ⟨j, -, copied', whole⟩ := copyBytes_spec short ends present apart targets sources (fun _ => true) c.n
    copied within rfl
  obtain rfl := whole fun _ => rfl
  exact copied'.tail short targets

/-- `strncpy` to memory elsewhere copies the bytes before the NUL, or all if there is none, and zeroes the
others. -/
theorem strncpy_pads (start : d < 2 ^ 64) :
    strncpy m d s n = (wrap (d + stop), (m.copy d s stop).clear (d + stop) (n - stop)) := by
  have begun : Copied m d s n 0 { d := d, s := s, n := n, m := m } := .start start
  unfold strncpy
  split
  · obtain ⟨i, within, aligned, -⟩ := copyBytes_spec short ends present apart targets sources
      (fun s => s &&& 8 ≠ 0) n begun (Nat.zero_le stop) rfl
    dsimp only at aligned ⊢
    split
    · rename_i ended
      have all : i = stop := by
        by_contra more
        rcases ended with none | zero
        · have left := aligned.left
          omega
        · have byte := aligned.load apart (j := 0) (by omega) (by omega)
          rw [Nat.add_zero, Nat.add_zero, zero] at byte
          exact present i (by omega) byte.symm
      subst all
      exact aligned.tail short targets
    · obtain ⟨j, within', copied⟩ := copyWords_spec short ends apart targets sources
        ((Copying.copyBytes (fun s => s &&& 8 ≠ 0) n d s m).n / 8) aligned within (by rw [aligned.left]; omega)
      exact copied.finish short ends present apart targets sources within'
  · exact begun.finish short ends present apart targets sources (Nat.zero_le stop)

end Copy

/-- `strncpy` of bytes that are not NUL, to memory elsewhere, copies them and nothing else. -/
theorem strncpy_eq {d s n : Nat} (apart : d + n ≤ s ∨ s + n ≤ d) (targets : d + n < 2 ^ 64) (sources : s + n < 2 ^ 64)
    (present : ∀ i < n, m (s + i) ≠ 0) : strncpy m d s n = (d + n, m.copy d s n) := by
  rw [strncpy_pads (Nat.le_refl n) (fun less => absurd less (Nat.lt_irrefl n)) present (fun i _ before => by omega)
    (Nat.le_of_lt targets) sources (by omega), wrap_of_lt targets, Nat.sub_self]
  congr 1
  funext a
  exact if_neg (by omega)

/-- `strncpy` of a string that fits; without room for its NUL there has to be one already. -/
theorem strncpy_spells {d s n : Nat} (spells : Spells m s text) (short : text.length ≤ n)
    (full : text.length = n → m (d + n) = 0)
    (apart : ∀ i ≤ text.length, s + i < d ∨ d + n ≤ s + i) (targets : d + n ≤ 2 ^ 64) (start : d < 2 ^ 64)
    (sources : s + text.length < 2 ^ 64) :
    Spells (strncpy m d s n).2 d text ∧ ∀ a, a < d ∨ d + n ≤ a → (strncpy m d s n).2 a = m a := by
  rw [strncpy_pads short (fun _ => spells.terminated) spells.present (fun i within _ => apart i within)
    targets sources start]
  unfold Memory.clear Memory.copy
  dsimp only
  refine ⟨spells.moved fun i within => ?_, fun a outside => ?_⟩
  · by_cases inside : i < text.length
    · rw [if_neg (by omega), if_pos (by omega), Nat.add_sub_cancel_left]
    · obtain rfl : i = text.length := by omega
      rw [spells.terminated]
      by_cases room : text.length < n
      · rw [if_pos (by omega)]
      · rw [if_neg (by omega), if_neg (by omega), show text.length = n by omega]
        exact full (by omega)
  · rw [if_neg (by omega), if_neg (by omega)]

/-- The bytes before the first NUL, as far as the limit. -/
theorem exists_stop (m : Memory) (s n : Nat) :
    ∃ stop ≤ n, (stop < n → m (s + stop) = 0) ∧ ∀ i < stop, m (s + i) ≠ 0 := by
  induction n with
  | zero =>
      exact ⟨0, Nat.le_refl 0, fun less => absurd less (Nat.lt_irrefl 0), fun i less => absurd less (Nat.not_lt_zero i)⟩
  | succ n ih =>
      obtain ⟨stop, within, ends, present⟩ := ih
      by_cases full : stop = n ∧ m (s + n) ≠ 0
      · refine ⟨n + 1, Nat.le_refl _, fun less => absurd less (Nat.lt_irrefl _), fun i less => ?_⟩
        by_cases last : i = n
        · rw [last]
          exact full.2
        · exact present i (by omega)
      · refine ⟨stop, Nat.le_succ_of_le within, fun _ => ?_, present⟩
        by_cases before : stop < n
        · exact ends before
        · rw [show stop = n by omega]
          by_contra nonzero
          exact full ⟨by omega, nonzero⟩

/-- Of bytes without a NUL at the beginning, `strncpy` copies the first one. -/
theorem strncpy_first {d s n : Nat} (nonzero : m s ≠ 0) (positive : 0 < n) (apart : d + n ≤ s ∨ s + n ≤ d)
    (targets : d + n ≤ 2 ^ 64) (sources : s + n < 2 ^ 64) : (strncpy m d s n).2 d = m s := by
  obtain ⟨stop, within, ends, present⟩ := exists_stop m s n
  have some : 0 < stop := by
    by_contra none
    obtain rfl : stop = 0 := by omega
    exact nonzero (ends positive)
  rw [strncpy_pads within ends present (fun i _ _ => by omega) targets (by omega) (by omega)]
  unfold Memory.clear Memory.copy
  dsimp only
  rw [if_neg (by omega), if_pos (by omega), Nat.sub_self, Nat.add_zero]

/-! ## `strncmp` -/

theorem toNat_sub_eq_zero (x y : UInt8) : (x.toNat : Int) - y.toNat = 0 ↔ x = y := by
  rw [sub_eq_zero, Nat.cast_inj]
  exact UInt8.toNat_inj

theorem compareLoop_of_stop {l r : Nat} (stop : ¬ (m l ≠ 0 ∧ m r ≠ 0 ∧ m l = m r)) (n : Nat) :
    compareLoop m n l r = (l, r) := by
  cases n with
  | zero => rfl
  | succ n => exact if_neg stop

/-- The bytes the loop ends at are the same exactly if the strings are, as far as the limit. -/
theorem compareLoop_spec (n : Nat) : ∀ {l r : Nat} {left right : List UInt8}, Spells m l left → Spells m r right →
    l + left.length < 2 ^ 64 → r + right.length < 2 ^ 64 →
    (m (compareLoop m n l r).1 = m (compareLoop m n l r).2 ↔ left.take (n + 1) = right.take (n + 1)) := by
  induction n with
  | zero =>
      intro l r left right spells spells' _ _
      rw [compareLoop]
      cases left with
      | nil => cases right with
        | nil => exact ⟨fun _ => rfl, fun _ => spells.trans spells'.symm⟩
        | cons y right => simp [show m l = 0 from spells, spells'.1, spells'.2.1.symm]
      | cons x left => cases right with
        | nil => simp [show m r = 0 from spells', spells.1, spells.2.1]
        | cons y right => simp [spells.1, spells'.1]
  | succ n ih =>
      intro l r left right spells spells' bound bound'
      cases left with
      | nil =>
          rw [compareLoop_of_stop fun more => more.1 spells]
          cases right with
          | nil => exact ⟨fun _ => rfl, fun _ => spells.trans spells'.symm⟩
          | cons y right => simp [show m l = 0 from spells, spells'.1, spells'.2.1.symm]
      | cons x left =>
          cases right with
          | nil =>
              rw [compareLoop_of_stop fun more => more.2.1 spells']
              simp [show m r = 0 from spells', spells.1, spells.2.1]
          | cons y right =>
              rw [List.length_cons] at bound bound'
              by_cases same : x = y
              · have more : m l ≠ 0 ∧ m r ≠ 0 ∧ m l = m r := by
                  rw [spells.1, spells'.1]
                  exact ⟨spells.2.1, spells'.2.1, same⟩
                rw [compareLoop, if_pos more, wrap_of_lt (by omega), wrap_of_lt (by omega),
                  ih spells.2.2 spells'.2.2 (by omega) (by omega), List.take_succ_cons, List.take_succ_cons, same]
                simp
              · rw [compareLoop_of_stop fun more => same (spells.1.symm.trans (more.2.2.trans spells'.1))]
                simp [spells.1, spells'.1, same]

/-- `strncmp` compares strings as far as the limit. -/
theorem strncmp_eq_zero_iff {l r n : Nat} {left right : List UInt8} (spells : Spells m l left)
    (spells' : Spells m r right) (bound : l + left.length < 2 ^ 64) (bound' : r + right.length < 2 ^ 64) :
    strncmp m l r n = 0 ↔ left.take n = right.take n := by
  unfold strncmp
  split
  · rename_i none
    simp [none]
  · rename_i some
    dsimp only
    rw [toNat_sub_eq_zero, compareLoop_spec (n - 1) spells spells' bound bound', Nat.sub_add_cancel (by omega)]

/-- Bytes that differ at the beginning. -/
theorem strncmp_first {l r n : Nat} (positive : n ≠ 0) (same : strncmp m l r n = 0) : m l = m r := by
  unfold strncmp at same
  rw [if_neg positive, toNat_sub_eq_zero] at same
  cases isLast : n - 1 with
  | zero =>
      rw [isLast] at same
      exact same
  | succ n =>
      rw [isLast, compareLoop] at same
      split at same
      · rename_i equal
        exact equal.2.2
      · exact same

/-! ## `memcpy` -/

/-- Copying downwards is right even if the ranges overlap. -/
theorem memcpy_eq (len : Nat) : ∀ {m : Memory} {d s : Nat}, d ≤ s → s + len < 2 ^ 64 →
    memcpy m d s len = m.copy d s len := by
  induction len with
  | zero => exact fun {m d s} _ _ => funext fun a => (if_neg (by omega)).symm
  | succ len ih =>
      intro m d s below bound
      rw [memcpy, wrap_of_lt (by omega), wrap_of_lt (by omega), ih (by omega) (by omega)]
      funext a
      unfold Memory.copy Memory.storeByte
      by_cases first : a = d
      · rw [if_neg (by omega), if_pos first, if_pos (by omega), first, Nat.sub_self, Nat.add_zero]
      · by_cases inside : d + 1 ≤ a ∧ a < d + 1 + len
        · rw [if_pos inside, if_neg (by omega), if_pos (by omega), show s + 1 + (a - (d + 1)) = s + (a - d) by omega]
        · rw [if_neg inside, if_neg first, if_neg (by omega)]

/-- For every memory with a NUL at or after `s`: `strlen` returns the distance to the first one, and `strncpy`
to bytes outside the string copies up to the NUL, zeroes the rest of the `n` bytes and changes no other. -/
theorem string_functions_bytewise {s d n z : Nat} (behind : s ≤ z) (memory : z < 2 ^ 64) (zero : m z = 0)
    (address : d < 2 ^ 64) (targets : d + n ≤ 2 ^ 64) :
    ∃ length, (m (s + length) = 0 ∧ ∀ i < length, m (s + i) ≠ 0) ∧
      (∀ rounds, length < rounds → strlen rounds m s = some length) ∧
      ((∀ i ≤ length, s + i < d ∨ d + n ≤ s + i) →
        (∀ i < min n length, (strncpy m d s n).2 (d + i) = m (s + i)) ∧
        (∀ i, length ≤ i → i < n → (strncpy m d s n).2 (d + i) = 0) ∧
        ∀ a, a < d ∨ d + n ≤ a → (strncpy m d s n).2 a = m a) := by
  have nul : ∃ i, m (s + i) = 0 := ⟨z - s, by rwa [Nat.add_sub_cancel' behind]⟩
  obtain ⟨length, first, present⟩ : ∃ length, m (s + length) = 0 ∧ ∀ i < length, m (s + i) ≠ 0 :=
    ⟨Nat.find nul, Nat.find_spec nul, fun i before => Nat.find_min nul before⟩
  have bound : s + length ≤ z := by
    by_contra beyond
    exact present (z - s) (by omega) (by rwa [Nat.add_sub_cancel' behind])
  refine ⟨length, ⟨first, present⟩, fun rounds enough => strlen_first (by omega) first present enough, fun apart => ?_⟩
  have ends : min n length < n → m (s + min n length) = 0 := by
    intro less
    rw [show min n length = length by omega]
    exact first
  rw [strncpy_pads (Nat.min_le_left n length) ends (fun i before => present i (by omega))
    (fun i within _ => apart i (by omega)) targets (by omega) address]
  unfold Memory.clear Memory.copy
  dsimp only
  refine ⟨fun i before => ?_, fun i from' before => if_pos (by omega), fun a outside => ?_⟩
  · rw [if_neg (by omega), if_pos (by omega), Nat.add_sub_cancel_left]
  · rw [if_neg (by omega), if_neg (by omega)]

/-- The letters from `A` to `S` at `13`. -/
def sampleLetters : Memory := fun a => if 13 ≤ a ∧ a < 32 then UInt8.ofNat (a + 52) else if a = 32 then 0 else 7

/-- Three bytes, two words and the NUL, copied to the same place in a word. -/
theorem string_functions_sample :
    strlen 20 sampleLetters 13 = some 19 ∧ (strncpy sampleLetters 77 13 24).2 (77 + 18) = 83 ∧
      (strncpy sampleLetters 77 13 24).2 (77 + 23) = 0 := by
  obtain ⟨length, ⟨first, present⟩, isLength, copies⟩ := @string_functions_bytewise sampleLetters 13 77 24 32
    (by decide) (by decide) (by decide) (by decide) (by decide)
  have letters : ∀ i < 19, sampleLetters (13 + i) ≠ 0 := by decide
  have all : length = 19 := by
    by_contra other
    by_cases less : length < 19
    · exact letters length less first
    · exact present 19 (by omega) (by decide)
  subst all
  obtain ⟨copied, padded, -⟩ := copies fun i within => by omega
  exact ⟨isLength 20 (by decide), (copied 18 (by decide)).trans (by decide), padded 23 (by decide) (by decide)⟩

end BubackOS.Libc
