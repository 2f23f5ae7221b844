import BubackOS.Libc.Truncation

/-!
# How far `vsnprintf` reaches

Whatever the format and the arguments are, the cursor passes the end of the buffer by the
text of one conversion at most, bytes are stored at the cursor only, and no format without a
terminator inside is read for ever.  So the bytes from the cursor on are those that were
there, and a literal first character stays the first.
-/

namespace BubackOS.Libc

open Library

/-- The longest text a conversion stores without asking for room: a sign and 64 digits. -/
def overshoot : Nat := 65

/-- A property of the cursor and the buffer that storing a byte at a cursor below `limit` keeps. -/
def Stable (limit : Nat) (P : Nat → Memory → Prop) : Prop :=
  ∀ p buffer c, p < limit → P p buffer → P (p + 1) fun i => if i = p then c else buffer i

/-- The property holds, and the cursor is not above `bound`. -/
def Printer.Within (P : Nat → Memory → Prop) (bound : Nat) (s : Printer) : Prop := P s.p s.buffer ∧ s.p ≤ bound

section Moves

variable {limit bound bufferSize : Nat} {P : Nat → Memory → Prop} {s : Printer}

theorem Printer.Within.writeBytes (stable : Stable limit P) (small : limit < 2 ^ 64) (bytes : List UInt8) :
    ∀ {bound : Nat} {s : Printer}, s.Within P bound → bound + bytes.length ≤ limit →
      (s.writeBytes bytes).Within P (bound + bytes.length) := by
  induction bytes with
  | nil => exact fun within _ => within
  | cons c bytes ih =>
      intro bound s within room
      rw [List.length_cons] at room ⊢
      have cursor : wrap (s.p + 1) = s.p + 1 := wrap_of_lt (by have := within.2; omega)
      have next : (s.writeChar c).Within P (bound + 1) := by
        unfold Within writeChar
        dsimp only
        rw [cursor]
        exact ⟨stable s.p s.buffer c (by have := within.2; omega) within.1, by have := within.2; omega⟩
      have later := ih next (by omega)
      rwa [show bound + 1 + bytes.length = bound + (bytes.length + 1) by omega] at later

theorem Printer.Within.writeChar (stable : Stable limit P) (small : limit < 2 ^ 64) (within : s.Within P bound)
    (room : bound < limit) (c : UInt8) : (s.writeChar c).Within P (bound + 1) :=
  within.writeBytes stable small [c] room

theorem convert_length (num base size : Nat) : (convert num base size).length ≤ min size 64 := by
  unfold convert
  split
  · exact Nat.zero_le _
  · rw [List.length_take, List.length_reverse, List.length_map]
    have digits := digitLoop_length base 64 num
    omega

variable (stable : Stable (bufferSize + overshoot) P) (small : bufferSize + overshoot < 2 ^ 64)

include stable small

/-- Bytes for which room was asked stay in the buffer. -/
theorem Printer.Within.writeTaken (within : s.Within P bufferSize) {bytes : List UInt8}
    (short : bytes.length ≤ wrapSub bufferSize s.p) : (s.writeBytes bytes).Within P bufferSize := by
  have cursor := within.2
  rw [wrapSub_of_le cursor (by omega)] at short
  have here : s.Within P s.p := ⟨within.1, Nat.le_refl _⟩
  have written := here.writeBytes stable small bytes (by omega)
  exact ⟨written.1, Nat.le_trans written.2 (by omega)⟩

theorem Printer.Within.writeNumber (within : s.Within P bufferSize) (num base : Nat) :
    (s.writeNumber bufferSize num base).Within P bufferSize :=
  within.writeTaken stable small (Nat.le_trans (convert_length num base _) (Nat.min_le_left _ _))

theorem Printer.Within.writeSequence (within : s.Within P bufferSize) (text : List UInt8) :
    (s.writeSequence bufferSize text).Within P bufferSize :=
  within.writeTaken stable small (by rw [List.length_take]; exact Nat.min_le_left _ _)

/-- A conversion that begins in the buffer ends not far behind it. -/
theorem Printer.Within.convertSpecifier (within : s.Within P bufferSize) (specifier : Specifier) :
    (convertSpecifier bufferSize specifier s).Within P (bufferSize + overshoot) := by
  have wide : ∀ {s : Printer}, s.Within P bufferSize → s.Within P (bufferSize + overshoot) := fun within =>
    ⟨within.1, Nat.le_add_right_of_le within.2⟩
  have one : ∀ {s : Printer}, s.Within P bufferSize → ∀ c, (s.writeChar c).Within P (bufferSize + overshoot) := by
    intro s within c
    have next := within.writeChar stable small (by unfold overshoot; omega) c
    exact ⟨next.1, Nat.le_trans next.2 (by unfold overshoot; omega)⟩
  have argument : s.vaArg.2.Within P bufferSize := within
  cases specifier with
  | char => exact one argument _
  | percent => exact one within _
  | other => exact wide within
  | octal | hexadecimal => exact wide (argument.writeNumber stable small _ _)
  | string => exact wide (argument.writeSequence stable small _)
  | pointer =>
      unfold BubackOS.Libc.convertSpecifier
      dsimp only
      split
      · exact wide ((argument.writeSequence stable small _).writeNumber stable small _ _)
      · exact wide (argument.writeSequence stable small _)
  | decimal =>
      unfold BubackOS.Libc.convertSpecifier
      dsimp only
      split
      · -- The sign is stored in any case, and behind a full buffer the digits find room again.
        have sign := argument.writeChar stable small (by unfold overshoot; omega) (byte '-')
        have length := convert_length (-asInt s.vaArg.1.word.toNat).toNat 10
          (wrapSub bufferSize (s.vaArg.2.writeChar (byte '-')).p)
        have room : bufferSize + 1 + (convert (-asInt s.vaArg.1.word.toNat).toNat 10
            (wrapSub bufferSize (s.vaArg.2.writeChar (byte '-')).p)).length ≤ bufferSize + overshoot := by
          unfold overshoot
          omega
        have digits := sign.writeBytes stable small _ room
        exact ⟨digits.1, Nat.le_trans digits.2 room⟩
      · exact wide (argument.writeNumber stable small _ _)

theorem Printer.Within.writeLiterals (format : Memory) (room : Nat) : ∀ {s : Printer}, s.Within P bufferSize →
    (writeLiterals format bufferSize room s).Within P bufferSize := by
  induction room with
  | zero => exact fun within => within
  | succ room ih =>
      intro s within
      unfold BubackOS.Libc.writeLiterals
      split
      · rename_i more
        have here : s.Within P s.p := ⟨within.1, Nat.le_refl _⟩
        have next := here.writeChar stable small (by unfold overshoot; omega) (format s.traverse)
        exact ih ⟨next.1, Nat.le_trans next.2 more.2.2⟩
      · exact within

theorem Printer.Within.convertNext (within : s.Within P bufferSize) (format : Memory) :
    (convertNext format bufferSize s).Within P (bufferSize + overshoot) := by
  have specified : s.advance.look.Within P bufferSize := within
  exact specified.convertSpecifier stable small _

theorem formatLoop_within {format : Memory} (rounds : Nat) : ∀ {s s' : Printer}, s.Within P (bufferSize + overshoot) →
    s' ∈ formatLoop format bufferSize rounds s → s'.Within P (bufferSize + overshoot) := by
  induction rounds with
  | zero => exact fun _ none => by cases none
  | succ rounds ih =>
      intro s s' within result
      by_cases running : format s.traverse ≠ 0 ∧ s.p < bufferSize
      · have literals : (writeLiterals format bufferSize (bufferSize - s.p) s.look).Within P bufferSize :=
          Printer.Within.writeLiterals stable small format _ ⟨within.1, Nat.le_of_lt running.2⟩
        rw [formatLoop_of_running rounds running rfl] at result
        split at result
        · cases result
          exact ⟨literals.1, Nat.le_add_right_of_le literals.2⟩
        · exact ih (literals.convertNext stable small format) result
      · rw [formatLoop_of_stop running] at result
        cases result
        exact within

end Moves

/-- The bytes from the cursor on are those that were there. -/
theorem stable_kept (base : Memory) (limit : Nat) : Stable limit fun p buffer => ∀ i, p ≤ i → buffer i = base i := by
  intro p buffer c _ kept i behind
  dsimp only
  rw [if_neg (by omega)]
  exact kept i (by omega)

/-- A first byte stays. -/
theorem stable_first (x : UInt8) (limit : Nat) : Stable limit fun p buffer => 0 < p ∧ buffer 0 = x := by
  intro p buffer c _ first
  refine ⟨Nat.succ_pos p, ?_⟩
  dsimp only
  rw [if_neg (Nat.ne_of_lt first.1)]
  exact first.2

section Runs

variable {format : Memory} {bufferSize rounds : Nat} {buffer : Memory} {args : List VarArg} {result : Int × Printer}

/-- The cursor of the result, and the bytes behind it. -/
theorem vsnprintf_kept (small : bufferSize + overshoot < 2 ^ 31)
    (returned : result ∈ vsnprintf rounds buffer bufferSize format args) (positive : 0 < bufferSize) :
    result.1 = result.2.p ∧ result.2.p ≤ bufferSize + overshoot ∧ result.2.buffer result.2.p = 0 ∧
      ∀ i, bufferSize ≤ i → result.2.p < i → result.2.buffer i = buffer i := by
  rw [vsnprintf_eq] at returned
  obtain ⟨s, ended, rfl⟩ := Option.mem_map.mp returned
  obtain ⟨kept, bound⟩ : s.Within (fun p buffer' => ∀ i, p ≤ i → buffer' i = buffer i) (bufferSize + overshoot) :=
    formatLoop_within (stable_kept buffer _) (by omega) rounds ⟨fun _ _ => rfl, Nat.zero_le _⟩ ended
  have cursor : (terminate bufferSize s).p = if s.p = bufferSize then bufferSize - 1 else s.p := by
    unfold terminate
    dsimp only
    split
    · rename_i full
      rw [full, wrapSub_of_le positive (by omega)]
    · rfl
  refine ⟨asInt_eq_iff.mpr ?_, ?_, if_pos rfl, fun i far behind => ?_⟩
  · rw [cursor]
    split <;> omega
  · dsimp only
    rw [cursor]
    split <;> omega
  · dsimp only at behind ⊢
    have byte : (terminate bufferSize s).buffer i = s.buffer i := if_neg (Nat.ne_of_gt behind)
    rw [byte]
    rw [cursor] at behind
    refine kept i ?_
    split at behind <;> omega

/-- A literal first character is the first byte of the result. -/
theorem vsnprintf_first (small : bufferSize + overshoot < 2 ^ 31) (wide : 1 < bufferSize)
    (literal : format 0 ≠ byte '%') (present : format 0 ≠ 0)
    (returned : result ∈ vsnprintf rounds buffer bufferSize format args) :
    0 < result.2.p ∧ result.2.buffer 0 = format 0 := by
  rw [vsnprintf_eq] at returned
  obtain ⟨s, ended, rfl⟩ := Option.mem_map.mp returned
  have stable := stable_first (format 0) (bufferSize + overshoot)
  obtain ⟨⟨positive, first⟩, -⟩ :
      s.Within (fun p buffer' => 0 < p ∧ buffer' 0 = format 0) (bufferSize + overshoot) := by
    cases rounds with
    | zero => cases ended
    | succ rounds =>
        -- The first round of the inner loop stores the character at the beginning.
        have more : format (Printer.start buffer args).look.traverse ≠ byte '%' ∧
            format (Printer.start buffer args).look.traverse ≠ 0 ∧ (Printer.start buffer args).look.p < bufferSize :=
          ⟨literal, present, Nat.zero_lt_of_lt wide⟩
        have begun : (writeLiterals format bufferSize (bufferSize - 0) (Printer.start buffer args).look).Within
            (fun p buffer' => 0 < p ∧ buffer' 0 = format 0) bufferSize := by
          rw [show bufferSize - 0 = bufferSize - 1 + 1 by omega, writeLiterals, if_pos more]
          refine Printer.Within.writeLiterals stable (by omega) format (bufferSize - 1) ?_
          exact ⟨⟨Nat.one_pos, rfl⟩, wide.le⟩
        have running : format (Printer.start buffer args).traverse ≠ 0 ∧ (Printer.start buffer args).p < bufferSize :=
          ⟨present, Nat.zero_lt_of_lt wide⟩
        rw [formatLoop_of_running rounds running rfl] at ended
        split at ended
        · cases ended
          exact ⟨begun.1, Nat.le_add_right_of_le begun.2⟩
        · exact formatLoop_within stable (by omega) rounds (begun.convertNext stable (by omega) format) ended
  have cursor : 0 < (terminate bufferSize s).p := by
    unfold terminate
    dsimp only
    split
    · rename_i full
      rw [full, wrapSub_of_le (by omega) (by omega)]
      omega
    · exact positive
  refine ⟨cursor, ?_⟩
  have byte : (terminate bufferSize s).buffer 0 = s.buffer 0 := if_neg (Nat.ne_of_lt cursor)
  exact byte.trans first

/-! ### The end of the format -/

theorem writeBytes_traverse (bytes : List UInt8) : ∀ s : Printer, (s.writeBytes bytes).traverse = s.traverse := by
  induction bytes with
  | nil => exact fun _ => rfl
  | cons c bytes ih => exact fun s => ih (s.writeChar c)

theorem convertSpecifier_traverse (specifier : Specifier) (s : Printer) :
    (convertSpecifier bufferSize specifier s).traverse = s.traverse := by
  cases specifier with
  | char | percent | other => rfl
  | octal | hexadecimal | string => exact writeBytes_traverse _ _
  | decimal =>
      unfold convertSpecifier
      dsimp only
      split
      · exact writeBytes_traverse _ _
      · exact writeBytes_traverse _ _
  | pointer =>
      unfold convertSpecifier
      dsimp only
      split
      · exact (writeBytes_traverse _ _).trans (writeBytes_traverse _ _)
      · exact writeBytes_traverse _ _

theorem writeLiterals_traverse (format : Memory) (room : Nat) : ∀ s : Printer,
    s.traverse ≤ (writeLiterals format bufferSize room s).traverse := by
  induction room with
  | zero => exact fun _ => Nat.le_refl _
  | succ room ih =>
      intro s
      unfold writeLiterals
      split
      · exact Nat.le_trans (Nat.le_succ s.traverse) (ih (s.look.writeChar (format s.traverse)).advance)
      · exact Nat.le_refl _

theorem cstring_end {text : List UInt8} {i : Nat} (present : cstring text i ≠ 0) : i < text.length := by
  by_contra behind
  refine present ?_
  unfold cstring
  rw [List.getD_eq_getElem?_getD, List.getElem?_eq_none (by omega)]
  rfl

/-- Every round of the outer loop moves on in the format. -/
theorem formatLoop_returns {text : List UInt8} (rounds : Nat) : ∀ {s : Printer},
    text.length < s.traverse + rounds → 0 < rounds → ∃ s', formatLoop (cstring text) bufferSize rounds s = some s' := by
  induction rounds with
  | zero => exact fun _ none => absurd none (Nat.lt_irrefl 0)
  | succ rounds ih =>
      intro s enough _
      by_cases running : cstring text s.traverse ≠ 0 ∧ s.p < bufferSize
      · have inside := cstring_end running.1
        have moved : s.traverse ≤ (writeLiterals (cstring text) bufferSize (bufferSize - s.p) s.look).traverse :=
          writeLiterals_traverse (cstring text) (bufferSize - s.p) s.look
        rw [formatLoop_of_running rounds running rfl]
        split
        · exact ⟨_, rfl⟩
        · refine ih ?_ (by omega)
          have next : (convertNext (cstring text) bufferSize
              (writeLiterals (cstring text) bufferSize (bufferSize - s.p) s.look)).traverse =
              (writeLiterals (cstring text) bufferSize (bufferSize - s.p) s.look).traverse + 1 + 1 :=
            congrArg (· + 1) (convertSpecifier_traverse _ _)
          omega
      · exact ⟨_, formatLoop_of_stop running⟩

/-! ### What the buffer held -/

/-- Two states that differ at most in what the buffer holds from the cursor on. -/
structure Printer.Alike (s s' : Printer) : Prop where
  traverse : s.traverse = s'.traverse
  p : s.p = s'.p
  args : s.args = s'.args
  buffer : ∀ i < s.p, s.buffer i = s'.buffer i

section Alike

variable {s s' : Printer}

namespace Printer.Alike

theorem look (alike : s.Alike s') : s.look.Alike s'.look := ⟨alike.traverse, alike.p, alike.args, alike.buffer⟩

theorem advance (alike : s.Alike s') : s.advance.Alike s'.advance :=
  ⟨congrArg (· + 1) alike.traverse, alike.p, alike.args, alike.buffer⟩

theorem vaArg (alike : s.Alike s') : s.vaArg.1 = s'.vaArg.1 ∧ s.vaArg.2.Alike s'.vaArg.2 := by
  unfold Printer.vaArg
  rw [alike.args]
  exact ⟨rfl, alike.traverse, alike.p, rfl, alike.buffer⟩

theorem writeChar (alike : s.Alike s') (c : UInt8) : (s.writeChar c).Alike (s'.writeChar c) where
  traverse := alike.traverse
  p := congrArg (fun p => wrap (p + 1)) alike.p
  args := alike.args
  buffer := by
    intro i below
    have near : i < s.p + 1 := Nat.lt_of_lt_of_le below (Nat.mod_le _ _)
    unfold Printer.writeChar
    dsimp only
    rw [← alike.p]
    split
    · rfl
    · exact alike.buffer i (by omega)

theorem writeBytes (bytes : List UInt8) : ∀ {s s' : Printer}, s.Alike s' →
    (s.writeBytes bytes).Alike (s'.writeBytes bytes) := by
  induction bytes with
  | nil => exact fun alike => alike
  | cons c bytes ih => exact fun alike => ih (alike.writeChar c)

theorem writeNumber (alike : s.Alike s') (num base : Nat) :
    (s.writeNumber bufferSize num base).Alike (s'.writeNumber bufferSize num base) := by
  unfold Printer.writeNumber
  rw [alike.p]
  exact alike.writeBytes _

theorem writeSequence (alike : s.Alike s') (text : List UInt8) :
    (s.writeSequence bufferSize text).Alike (s'.writeSequence bufferSize text) := by
  unfold Printer.writeSequence
  rw [alike.p]
  exact alike.writeBytes _

theorem convertSpecifier (alike : s.Alike s') (specifier : Specifier) :
    (convertSpecifier bufferSize specifier s).Alike (convertSpecifier bufferSize specifier s') := by
  obtain ⟨same, rest⟩ := alike.vaArg
  unfold BubackOS.Libc.convertSpecifier
  cases specifier with
  | char =>
      dsimp only
      rw [same]
      exact rest.writeChar _
  | percent => exact alike.writeChar _
  | other => exact alike
  | octal | hexadecimal =>
      dsimp only
      rw [same]
      exact rest.writeNumber _ _
  | string =>
      dsimp only
      rw [same]
      exact rest.writeSequence _
  | pointer =>
      dsimp only
      rw [same]
      split
      · exact (rest.writeSequence _).writeNumber _ _
      · exact rest.writeSequence _
  | decimal =>
      dsimp only
      rw [same]
      split
      · exact (rest.writeChar _).writeNumber _ _
      · exact rest.writeNumber _ _

theorem convertNext (alike : s.Alike s') (format : Memory) :
    (convertNext format bufferSize s).Alike (convertNext format bufferSize s') := by
  unfold BubackOS.Libc.convertNext
  rw [alike.advance.look.traverse]
  exact (alike.advance.look.convertSpecifier _).advance

theorem writeLiterals (format : Memory) (room : Nat) : ∀ {s s' : Printer}, s.Alike s' →
    (writeLiterals format bufferSize room s).Alike (writeLiterals format bufferSize room s') := by
  induction room with
  | zero => exact fun alike => alike.look
  | succ room ih =>
      intro s s' alike
      unfold BubackOS.Libc.writeLiterals
      rw [alike.traverse, alike.p]
      split
      · exact ih (alike.look.writeChar _).advance
      · exact alike.look

/-- No byte of the buffer is ever read. -/
theorem formatLoop {format : Memory} (rounds : Nat) : ∀ {s s' t t' : Printer}, s.Alike s' →
    t ∈ formatLoop format bufferSize rounds s → t' ∈ formatLoop format bufferSize rounds s' → t.Alike t' := by
  induction rounds with
  | zero => exact fun _ none => by cases none
  | succ rounds ih =>
      intro s s' t t' alike result result'
      have literals : (BubackOS.Libc.writeLiterals format bufferSize (bufferSize - s.p) s.look).Alike
          (BubackOS.Libc.writeLiterals format bufferSize (bufferSize - s.p) s'.look) :=
        alike.look.writeLiterals format (bufferSize - s.p)
      by_cases running : format s.traverse ≠ 0 ∧ s.p < bufferSize
      · have running' : format s'.traverse ≠ 0 ∧ s'.p < bufferSize := by
          rw [← alike.traverse, ← alike.p]
          exact running
        rw [formatLoop_of_running rounds running rfl] at result
        rw [formatLoop_of_running rounds running' rfl, ← alike.p, ← literals.traverse] at result'
        split at result
        · rename_i ended
          rw [if_pos ended] at result'
          cases result
          cases result'
          exact literals
        · rename_i more
          rw [if_neg more] at result'
          exact ih (literals.convertNext format) result result'
      · have stop : ¬ (format s'.traverse ≠ 0 ∧ s'.p < bufferSize) := by
          rw [← alike.traverse, ← alike.p]
          exact running
        rw [formatLoop_of_stop running] at result
        rw [formatLoop_of_stop stop] at result'
        cases result
        cases result'
        exact alike.look

theorem terminate (alike : s.Alike s') (positive : 1 ≤ bufferSize) (small : bufferSize < 2 ^ 64) :
    (terminate bufferSize s).Alike (terminate bufferSize s') where
  traverse := alike.traverse
  p := by
    unfold BubackOS.Libc.terminate
    rw [alike.p]
  args := alike.args
  buffer := by
    unfold BubackOS.Libc.terminate
    dsimp only
    rw [← alike.p]
    intro i below
    rw [if_neg (Nat.ne_of_lt below), if_neg (Nat.ne_of_lt below)]
    refine alike.buffer i (Nat.lt_of_lt_of_le below ?_)
    split
    · rename_i full
      rw [full, wrapSub_of_le positive small]
      exact Nat.sub_le _ _
    · exact Nat.le_refl _

end Printer.Alike

end Alike

/-- What `vsnprintf` returns and leaves before its NUL does not depend on what the buffer held. -/
theorem vsnprintf_alike (positive : 1 ≤ bufferSize) (small : bufferSize < 2 ^ 64) {buffer' : Memory}
    {result' : Int × Printer} (returned : result ∈ vsnprintf rounds buffer bufferSize format args)
    (returned' : result' ∈ vsnprintf rounds buffer' bufferSize format args) :
    result.1 = result'.1 ∧ result.2.Alike result'.2 := by
  rw [vsnprintf_eq] at returned returned'
  obtain ⟨s, ended, rfl⟩ := Option.mem_map.mp returned
  obtain ⟨s', ended', rfl⟩ := Option.mem_map.mp returned'
  have start : (Printer.start buffer args).Alike (.start buffer' args) := ⟨rfl, rfl, rfl, fun i none => by cases none⟩
  have alike := (start.formatLoop rounds ended ended').terminate positive small
  exact ⟨congrArg asInt alike.p, alike⟩

theorem vsnprintf_returns (text : List UInt8) (buffer : Memory) (bufferSize : Nat) (args : List VarArg) :
    ∃ result, vsnprintf (text.length + 1) buffer bufferSize (cstring text) args = some result := by
  obtain ⟨s, ended⟩ : ∃ s, formatLoop (cstring text) bufferSize (text.length + 1) (.start buffer args) = some s :=
    formatLoop_returns (text.length + 1) (Nat.lt_of_lt_of_le (Nat.lt_succ_self _) (Nat.le_add_left _ _)) (Nat.succ_pos _)
  rw [vsnprintf_eq, ended]
  exact ⟨_, rfl⟩

end Runs

end BubackOS.Libc
