import BubackOS.Libc.Formatting
import BubackOS.Libc.Strings

/-!
# The text a format stands for

The rendering of a format, without a buffer, and what the parts of `vsnprintf` do towards
it: each conversion and each stretch of literal text appends its bytes, as far as there is
room, and every access is noted.
-/

namespace BubackOS.Libc

open Library

/-! ## The reference -/

/-- The digit characters, upper case. -/
def digitByte (digit : Nat) : UInt8 := UInt8.ofNat (if digit < 10 then 48 + digit else 55 + digit)

/-- The canonical numeral of a number. -/
def numeral (base num : Nat) : List UInt8 :=
  (if num = 0 then [0] else (Nat.digits base num).reverse).map digitByte

namespace Specifier

/-- The text of a conversion. -/
def text (arg : VarArg) : Specifier → List UInt8
  | char => [arg.word.toUInt8]
  | decimal =>
      if asInt arg.word.toNat < 0 then byte '-' :: numeral 10 (asInt arg.word.toNat).natAbs
      else numeral 10 (asInt arg.word.toNat).natAbs
  | octal => numeral 8 (arg.word.toNat % 2 ^ 32)
  | string => if arg.word = 0 then literal "(null)" else arg.text
  | pointer => if arg.word = 0 then literal "(null)" else literal "0x" ++ numeral 16 arg.word.toNat
  | hexadecimal => numeral 16 (arg.word.toNat % 2 ^ 32)
  | percent => [byte '%']
  | other => []

/-- The arguments left behind a conversion. -/
def rest (args : List VarArg) : Specifier → List VarArg
  | percent | other => args
  | _ => args.tail

end Specifier

/-- The text of a format. -/
def render : List UInt8 → List VarArg → List UInt8
  | [], _ => []
  | [x], _ => if x = byte '%' then [] else [x]
  | x :: c :: format, args =>
      if x = byte '%' then
        (Specifier.ofByte c).text (args.headD default) ++ render format ((Specifier.ofByte c).rest args)
      else x :: render (c :: format) args

/-- The arguments a format leaves. -/
def argsLeft : List UInt8 → List VarArg → List VarArg
  | [], args => args
  | [_], args => args
  | x :: c :: format, args =>
      if x = byte '%' then argsLeft format ((Specifier.ofByte c).rest args) else argsLeft (c :: format) args

/-- Every `%` is followed by a character. -/
def complete : List UInt8 → Bool
  | [] => true
  | [x] => x ≠ byte '%'
  | x :: c :: format => if x = byte '%' then complete format else complete (c :: format)

theorem render_cons {x : UInt8} {format : List UInt8} {args : List VarArg} (literal : x ≠ byte '%') :
    render (x :: format) args = x :: render format args := by
  cases format with
  | nil => simp [render, literal]
  | cons c format => rw [render, if_neg literal]

theorem argsLeft_cons {x : UInt8} {format : List UInt8} {args : List VarArg} (literal : x ≠ byte '%') :
    argsLeft (x :: format) args = argsLeft format args := by
  cases format with
  | nil => rfl
  | cons c format => rw [argsLeft, if_neg literal]

/-! ## Numbers -/

theorem representation_eq {digit : Nat} (small : digit < 16) : representation.getD digit 0 = digitByte digit := by
  decide +revert

/-- `convert` stores the first bytes of the numeral. -/
theorem convert_eq {num base : Nat} (large : 1 < base) (small : base ≤ 16) (bound : num < 2 ^ 64) (size : Nat) :
    convert num base size = (numeral base num).take size := by
  have rounds : num < base ^ 64 := Nat.lt_of_lt_of_le bound (Nat.pow_le_pow_left large 64)
  unfold convert
  split
  · rename_i empty
    rw [empty, List.take_zero]
  · rw [digitLoop_eq large 63 num rounds]
    unfold numeral
    split
    · rfl
    · rw [← List.map_reverse]
      refine congrArg (List.take size) (List.map_congr_left fun digit member => representation_eq ?_)
      exact Nat.lt_of_lt_of_le (Nat.digits_lt_base large (List.mem_reverse.mp member)) small

theorem asInt_bounds (value : Nat) : -2 ^ 31 ≤ asInt value ∧ asInt value < 2 ^ 31 := by
  unfold asInt
  omega

/-- The number of a length that an `int` can hold. -/
theorem asInt_eq_iff {value : Nat} : asInt value = value ↔ value < 2 ^ 31 := by
  unfold asInt
  omega

/-! ## Progress -/

/-- A state in which `rest` is still to be read and `out` has been written, without an access out of
bounds. -/
structure Progress (format : Memory) (bufferSize last : Nat) (rest out : List UInt8) (s : Printer) : Prop where
  spells : Spells format s.traverse rest
  ends : s.traverse + rest.length = last
  cursor : s.p = out.length
  fits : out.length ≤ bufferSize
  stored : ∀ i c, out[i]? = some c → s.buffer i = c
  reads : ∀ i ∈ s.reads, i ≤ last
  writes : ∀ i ∈ s.writes, i < out.length

variable {format : Memory} {bufferSize last : Nat} {rest out : List UInt8} {s : Printer}

namespace Progress

theorem look (progress : Progress format bufferSize last rest out s) :
    Progress format bufferSize last rest out s.look := by
  refine { progress with reads := fun i member => ?_ }
  rcases List.mem_cons.mp member with rfl | before
  · have ends := progress.ends
    omega
  · exact progress.reads i before

theorem advance {x : UInt8} (progress : Progress format bufferSize last (x :: rest) out s) :
    Progress format bufferSize last rest out s.advance := by
  refine { progress with spells := progress.spells.2.2, ends := ?_ }
  have ends := progress.ends
  rw [List.length_cons] at ends
  unfold Printer.advance
  dsimp only
  omega

theorem vaArg (progress : Progress format bufferSize last rest out s) :
    Progress format bufferSize last rest out s.vaArg.2 := { progress with }

theorem writeChar (progress : Progress format bufferSize last rest out s) (bound : bufferSize < 2 ^ 64)
    (room : out.length < bufferSize) (c : UInt8) :
    Progress format bufferSize last rest (out ++ [c]) (s.writeChar c) := by
  have cursor := progress.cursor
  refine { progress with cursor := ?_, fits := ?_, stored := fun i found stored => ?_, writes := fun i member => ?_ }
  · unfold Printer.writeChar
    rw [List.length_append, cursor]
    exact wrap_of_lt (by omega)
  · rw [List.length_append]
    exact room
  · unfold Printer.writeChar
    dsimp only
    by_cases here : i = out.length
    · rw [here, List.getElem?_append_right (Nat.le_refl _), Nat.sub_self] at stored
      rw [cursor, if_pos here]
      exact Option.some.inj stored
    · have before : i < out.length := by
        have inside := (List.getElem?_eq_some_iff.mp stored).1
        rw [List.length_append, List.length_singleton] at inside
        omega
      rw [List.getElem?_append_left before] at stored
      rw [cursor, if_neg here]
      exact progress.stored i found stored
  · rw [List.length_append, List.length_singleton]
    rcases List.mem_cons.mp member with rfl | before
    · rw [cursor]
      exact Nat.lt_succ_self _
    · exact Nat.lt_succ_of_lt (progress.writes i before)

theorem writeBytes (bound : bufferSize < 2 ^ 64) (bytes : List UInt8) :
    ∀ {out : List UInt8} {s : Printer}, Progress format bufferSize last rest out s →
      out.length + bytes.length ≤ bufferSize →
      Progress format bufferSize last rest (out ++ bytes) (s.writeBytes bytes) := by
  induction bytes with
  | nil =>
      intro out s progress _
      rw [List.append_nil]
      exact progress
  | cons c bytes ih =>
      intro out s progress room
      rw [List.length_cons] at room
      have first := progress.writeChar bound (by omega) c
      have all := ih first (by rw [List.length_append, List.length_singleton]; omega)
      rw [List.append_assoc] at all
      exact all

theorem room_eq (progress : Progress format bufferSize last rest out s) (bound : bufferSize < 2 ^ 64) :
    wrapSub bufferSize s.p = bufferSize - out.length := by
  rw [progress.cursor]
  exact wrapSub_of_le progress.fits bound

theorem writeTaken (progress : Progress format bufferSize last rest out s) (bound : bufferSize < 2 ^ 64)
    (bytes : List UInt8) : Progress format bufferSize last rest ((out ++ bytes).take bufferSize)
      (s.writeBytes (bytes.take (bufferSize - out.length))) := by
  have fits := progress.fits
  have written := progress.writeBytes bound (bytes.take (bufferSize - out.length))
    (by rw [List.length_take]; omega)
  rw [List.take_append, List.take_of_length_le fits]
  exact written

theorem writeSequence (progress : Progress format bufferSize last rest out s) (bound : bufferSize < 2 ^ 64)
    (text : List UInt8) :
    Progress format bufferSize last rest ((out ++ text).take bufferSize) (s.writeSequence bufferSize text) := by
  rw [Printer.writeSequence, progress.room_eq bound]
  exact progress.writeTaken bound text

theorem writeNumber (progress : Progress format bufferSize last rest out s) (bound : bufferSize < 2 ^ 64)
    {num base : Nat} (large : 1 < base) (small : base ≤ 16) (word : num < 2 ^ 64) :
    Progress format bufferSize last rest ((out ++ numeral base num).take bufferSize)
      (s.writeNumber bufferSize num base) := by
  rw [Printer.writeNumber, progress.room_eq bound, convert_eq large small word]
  exact progress.writeTaken bound _

end Progress

/-! ## Conversions -/

namespace Printer

theorem writeBytes_args (bytes : List UInt8) : ∀ s : Printer, (s.writeBytes bytes).args = s.args := by
  induction bytes with
  | nil => exact fun _ => rfl
  | cons c bytes ih => exact fun s => ih (s.writeChar c)

theorem writeSequence_args (bufferSize : Nat) (text : List UInt8) (s : Printer) :
    (s.writeSequence bufferSize text).args = s.args := writeBytes_args _ s

theorem writeNumber_args (bufferSize num base : Nat) (s : Printer) :
    (s.writeNumber bufferSize num base).args = s.args := writeBytes_args _ s

end Printer

theorem convertSpecifier_args (specifier : Specifier) (s : Printer) :
    (convertSpecifier bufferSize specifier s).args = specifier.rest s.args := by
  cases specifier with
  | char | percent | other => rfl
  | decimal =>
      unfold convertSpecifier
      dsimp only
      split
      · rw [Printer.writeNumber_args]
        rfl
      · rw [Printer.writeNumber_args]
        rfl
  | octal | hexadecimal => exact Printer.writeNumber_args _ _ _ _
  | string => exact Printer.writeSequence_args _ _ _
  | pointer =>
      unfold convertSpecifier
      dsimp only
      split
      · rw [Printer.writeNumber_args, Printer.writeSequence_args]
        rfl
      · rw [Printer.writeSequence_args]
        rfl

/-- The conversion looks at the room before it writes. -/
def Specifier.checksRoom (arg : VarArg) : Specifier → Bool
  | char | percent => false
  | decimal => 0 ≤ asInt arg.word.toNat
  | _ => true

theorem take_take_append {α : Type} (n : Nat) (l m : List α) : (l.take n ++ m).take n = (l ++ m).take n := by
  rw [List.take_append, List.take_append, List.take_take, Nat.min_self, List.length_take]
  congr 2
  omega

/-- A conversion writes its text as far as there is room. -/
theorem Progress.convertSpecifier (progress : Progress format bufferSize last rest out s) (bound : bufferSize < 2 ^ 64)
    (specifier : Specifier)
    (room : out.length < bufferSize ∨ specifier.checksRoom (s.args.headD default) = true) :
    Progress format bufferSize last rest ((out ++ specifier.text (s.args.headD default)).take bufferSize)
      (convertSpecifier bufferSize specifier s) := by
  have one : ∀ {out : List UInt8} {s : Printer}, Progress format bufferSize last rest out s →
      out.length < bufferSize → ∀ c, Progress format bufferSize last rest ((out ++ [c]).take bufferSize)
        (s.writeChar c) := by
    intro out s progress room c
    rw [List.take_of_length_le (by rw [List.length_append]; exact room)]
    exact progress.writeChar bound room c
  have low : ∀ word : UInt64, word.toNat % 2 ^ 32 < 2 ^ 64 := fun word => by omega
  have int := asInt_bounds (s.args.headD default).word.toNat
  cases specifier with
  | char => exact one progress.vaArg (room.resolve_right Bool.false_ne_true) _
  | percent => exact one progress (room.resolve_right Bool.false_ne_true) _
  | other =>
      have none : (out ++ Specifier.other.text (s.args.headD default)).take bufferSize = out := by
        rw [Specifier.text, List.append_nil, List.take_of_length_le progress.fits]
      rw [none]
      exact progress
  | octal => exact progress.vaArg.writeNumber bound (by decide) (by decide) (low _)
  | hexadecimal => exact progress.vaArg.writeNumber bound (by decide) (by decide) (low _)
  | string =>
      unfold BubackOS.Libc.convertSpecifier Specifier.text
      dsimp only
      rw [ite_not]
      exact progress.vaArg.writeSequence bound _
  | pointer =>
      unfold BubackOS.Libc.convertSpecifier Specifier.text
      dsimp only
      rw [ite_not]
      by_cases null : (s.args.headD default).word = 0
      · rw [if_pos null, if_pos (show s.vaArg.1.word = 0 from null)]
        exact progress.vaArg.writeSequence bound _
      · rw [if_neg null, if_neg (show s.vaArg.1.word ≠ 0 from null), ← List.append_assoc, ← take_take_append]
        exact (progress.vaArg.writeSequence bound _).writeNumber bound (by decide) (by decide) (UInt64.toNat_lt _)
  | decimal =>
      have first : s.vaArg.1 = s.args.headD default := rfl
      unfold Specifier.checksRoom at room
      unfold BubackOS.Libc.convertSpecifier Specifier.text
      dsimp only
      rw [first]
      generalize asInt (s.args.headD default).word.toNat = value at int room ⊢
      by_cases negative : value < 0
      · have room' : out.length < bufferSize := by
          refine room.resolve_right fun checks => ?_
          have positive : 0 ≤ value := of_decide_eq_true checks
          omega
        have magnitude : (-value).toNat = value.natAbs := by omega
        rw [if_pos negative, if_pos negative, magnitude]
        have signed := progress.vaArg.writeChar bound room' (byte '-')
        have all := signed.writeNumber bound (by decide : 1 < 10) (by decide) (by omega : value.natAbs < 2 ^ 64)
        rw [List.append_assoc] at all
        exact all
      · have magnitude : value.toNat = value.natAbs := by omega
        rw [if_neg negative, if_neg negative, magnitude]
        exact progress.vaArg.writeNumber bound (by decide) (by decide) (by omega)

/-! ## Accesses -/

/-- The accesses noted so far stay noted. -/
structure Printer.Extends (s s' : Printer) : Prop where
  reads : s.reads ⊆ s'.reads
  writes : s.writes ⊆ s'.writes

namespace Printer.Extends

variable {s' s'' : Printer}

theorem refl (s : Printer) : Extends s s := ⟨List.Subset.refl _, List.Subset.refl _⟩

theorem trans (first : Extends s s') (second : Extends s' s'') : Extends s s'' :=
  ⟨List.Subset.trans first.reads second.reads, List.Subset.trans first.writes second.writes⟩

theorem look (s : Printer) : Extends s s.look := ⟨List.subset_cons_self _ _, List.Subset.refl _⟩

theorem advance (s : Printer) : Extends s s.advance := ⟨List.Subset.refl _, List.Subset.refl _⟩

theorem writeChar (c : UInt8) (s : Printer) : Extends s (s.writeChar c) :=
  ⟨List.Subset.refl _, List.subset_cons_self _ _⟩

theorem writeBytes (bytes : List UInt8) : ∀ s : Printer, Extends s (s.writeBytes bytes) := by
  induction bytes with
  | nil => exact refl
  | cons c bytes ih => exact fun s => (writeChar c s).trans (ih _)

theorem convertSpecifier (bufferSize : Nat) (specifier : Specifier) (s : Printer) :
    Extends s (convertSpecifier bufferSize specifier s) := by
  have arg : Extends s s.vaArg.2 := ⟨List.Subset.refl _, List.Subset.refl _⟩
  cases specifier with
  | char => exact arg.trans (writeChar _ _)
  | percent => exact writeChar _ _
  | other => exact refl s
  | octal | hexadecimal | string => exact arg.trans (writeBytes _ _)
  | decimal =>
      unfold BubackOS.Libc.convertSpecifier
      dsimp only
      split
      · exact (arg.trans (writeChar _ _)).trans (writeBytes _ _)
      · exact arg.trans (writeBytes _ _)
  | pointer =>
      unfold BubackOS.Libc.convertSpecifier
      dsimp only
      split
      · exact (arg.trans (writeBytes _ _)).trans (writeBytes _ _)
      · exact arg.trans (writeBytes _ _)

theorem writeLiterals (format : Memory) (bufferSize room : Nat) :
    ∀ s : Printer, Extends s (writeLiterals format bufferSize room s) := by
  induction room with
  | zero => exact look
  | succ room ih =>
      intro s
      unfold BubackOS.Libc.writeLiterals
      split
      · exact (((look s).trans (writeChar _ _)).trans (advance _)).trans (ih _)
      · exact look s

theorem formatLoop (format : Memory) (bufferSize rounds : Nat) :
    ∀ s : Printer, ∀ s' ∈ formatLoop format bufferSize rounds s, Extends s s' := by
  induction rounds with
  | zero => exact fun s s' none => by cases none
  | succ rounds ih =>
      intro s s' result
      unfold BubackOS.Libc.formatLoop at result
      dsimp only at result
      split at result
      · have written := (look s).trans (writeLiterals format bufferSize (bufferSize - s.p) s.look)
        split at result
        · rw [← Option.some.inj result]
          exact written
        · have rest := ih _ s' result
          exact ((((written.trans (advance _)).trans (look _)).trans (convertSpecifier _ _ _)).trans (advance _)).trans rest
      · rw [← Option.some.inj result]
        exact look s

end Printer.Extends

/-- A conversion that does not look at the room writes behind a full buffer. -/
theorem convertSpecifier_overruns {specifier : Specifier} (full : s.p = bufferSize)
    (blind : specifier.checksRoom (s.args.headD default) = false) :
    bufferSize ∈ (convertSpecifier bufferSize specifier s).writes := by
  have written : ∀ c, bufferSize ∈ (s.writeChar c).writes := fun c => by
    rw [← full]
    exact List.mem_cons_self
  cases specifier with
  | char => exact written s.vaArg.1.word.toUInt8
  | percent => exact written (byte '%')
  | decimal =>
      have negative : asInt s.vaArg.1.word.toNat < 0 := by
        unfold Specifier.checksRoom at blind
        exact Int.not_le.mp (of_decide_eq_false blind)
      unfold convertSpecifier
      dsimp only
      rw [if_pos negative]
      exact (Printer.Extends.writeBytes _ _).writes (written (byte '-'))
  | octal | string | pointer | hexadecimal | other => cases blind


/-! ## Literal text -/

/-- The inner loop copies literal text up to the next `%`, the end of the format or that of the buffer. -/
theorem writeLiterals_spec (bound : bufferSize < 2 ^ 64) (room : Nat) :
    ∀ {rest out : List UInt8} {s : Printer}, Progress format bufferSize last rest out s →
      out.length + room = bufferSize →
      ∃ text rest', rest = text ++ rest' ∧ byte '%' ∉ text ∧
        Progress format bufferSize last rest' (out ++ text) (writeLiterals format bufferSize room s) ∧
        (writeLiterals format bufferSize room s).args = s.args ∧
        (rest' = [] ∨ (out ++ text).length = bufferSize ∨ ∃ rest'', rest' = byte '%' :: rest'') := by
  induction room with
  | zero =>
      intro rest out s progress full
      refine ⟨[], rest, rfl, List.not_mem_nil, ?_, rfl, Or.inr (Or.inl ?_)⟩
      · rw [List.append_nil]
        exact progress.look
      · rw [List.append_nil]
        exact full
  | succ room ih =>
      intro rest out s progress full
      have stop : ∀ {rest' : List UInt8}, rest = rest' → rest' = [] ∨ (∃ rest'', rest' = byte '%' :: rest'') →
          writeLiterals format bufferSize (room + 1) s = s.look →
          ∃ text rest', rest = text ++ rest' ∧ byte '%' ∉ text ∧
            Progress format bufferSize last rest' (out ++ text) (writeLiterals format bufferSize (room + 1) s) ∧
            (writeLiterals format bufferSize (room + 1) s).args = s.args ∧
            (rest' = [] ∨ (out ++ text).length = bufferSize ∨ ∃ rest'', rest' = byte '%' :: rest'') := by
        intro rest' same ended stops
        rw [stops]
        refine ⟨[], rest, rfl, List.not_mem_nil, ?_, rfl, ?_⟩
        · rw [List.append_nil]
          exact progress.look
        · rcases ended with empty | percent
          · exact Or.inl (same.trans empty)
          · exact Or.inr (Or.inr (same ▸ percent))
      cases rest with
      | nil =>
          have null : format s.traverse = 0 := progress.spells
          exact stop rfl (Or.inl rfl) (if_neg fun running => running.2.1 null)
      | cons x rest =>
          obtain ⟨here, nonzero, -⟩ := progress.spells
          by_cases percent : x = byte '%'
          · exact stop rfl (Or.inr ⟨rest, by rw [percent]⟩) (if_neg fun running => running.1 (here.trans percent))
          · have running : format s.traverse ≠ byte '%' ∧ format s.traverse ≠ 0 ∧ s.p < bufferSize := by
              rw [here, progress.cursor]
              exact ⟨percent, nonzero, by omega⟩
            have unfolded : writeLiterals format bufferSize (room + 1) s = writeLiterals format bufferSize room
                (s.look.writeChar (format s.traverse)).advance := if_pos running
            rw [here] at unfolded
            have next := (progress.look.writeChar bound (by omega) x).advance
            obtain ⟨text, rest', split, literal, after, args, ended⟩ := ih next
              (by rw [List.length_append, List.length_singleton]; omega)
            rw [List.append_assoc] at after ended
            rw [unfolded]
            refine ⟨x :: text, rest', by rw [split]; rfl, ?_, after, args, ended⟩
            exact fun member => (List.mem_cons.mp member).elim (fun same => percent same.symm) literal

end BubackOS.Libc
