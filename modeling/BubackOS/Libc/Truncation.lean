import BubackOS.Libc.Rendering
import Mathlib.Data.UInt

/-!
# `vsnprintf` against the text of its format

With room for all of the text the buffer holds exactly that text. With less room it holds
the first bytes of it, unless the end of the buffer falls on literal text at the wrong
place: then the next character is taken for a `%`.
-/

namespace BubackOS.Libc

open Library

variable {format : Memory} {bufferSize last : Nat} {rest out : List UInt8} {s : Printer}

/-! ## Whole formats -/

/-- The end of the buffer does no harm: no `%` is the last character where it is reached, and when literal
text fills the buffer, the character behind the next one is there and is not `c`, `%` or a `d` with a
negative argument. -/
def truncatesCleanly : List UInt8 → Nat → List VarArg → Bool
  | [], _, _ => true
  | [x], room, _ => room ≠ 0 && x ≠ byte '%'
  | x :: c :: format, room, args =>
      if room = 0 then (Specifier.ofByte c).checksRoom (args.headD default)
      else if x = byte '%' then
        room ≤ ((Specifier.ofByte c).text (args.headD default)).length ||
          truncatesCleanly format (room - ((Specifier.ofByte c).text (args.headD default)).length)
            ((Specifier.ofByte c).rest args)
      else truncatesCleanly (c :: format) (room - 1) args

theorem truncatesCleanly_cons {x : UInt8} {format : List UInt8} {room : Nat} {args : List VarArg}
    (literal : x ≠ byte '%') (some : room ≠ 0) :
    truncatesCleanly (x :: format) room args = truncatesCleanly format (room - 1) args := by
  cases format with
  | nil => simp [truncatesCleanly, literal, some]
  | cons c format => rw [truncatesCleanly, if_neg some, if_neg literal]

/-- Literal text stands for itself. -/
theorem literal_append {text : List UInt8} (literal : byte '%' ∉ text) (format : List UInt8) (args : List VarArg) :
    render (text ++ format) args = text ++ render format args ∧ argsLeft (text ++ format) args = argsLeft format args ∧
      ∀ room, text.length ≤ room →
        truncatesCleanly (text ++ format) room args = truncatesCleanly format (room - text.length) args := by
  induction text with
  | nil => exact ⟨rfl, rfl, fun room _ => rfl⟩
  | cons x text ih =>
      have here : x ≠ byte '%' := fun same => literal (same ▸ List.mem_cons_self)
      obtain ⟨rendered, left, clean⟩ := ih fun member => literal (List.mem_cons_of_mem x member)
      refine ⟨?_, ?_, fun room enough => ?_⟩
      · rw [List.cons_append, render_cons here, rendered]
        rfl
      · rw [List.cons_append, argsLeft_cons here, left]
      · rw [List.length_cons] at enough ⊢
        rw [List.cons_append, truncatesCleanly_cons here (by omega), clean (room - 1) (by omega)]
        congr 1
        omega

/-- An access out of bounds: of the format behind its NUL, or of the buffer behind its end. -/
def Printer.Strays (bufferSize last : Nat) (s : Printer) : Prop :=
  (∃ i ∈ s.reads, last < i) ∨ ∃ i ∈ s.writes, bufferSize ≤ i

theorem Printer.Strays.later {s' : Printer} (strays : s.Strays bufferSize last) (more : s.Extends s') :
    s'.Strays bufferSize last := by
  rcases strays with ⟨i, read, beyond⟩ | ⟨i, written, beyond⟩
  · exact Or.inl ⟨i, more.reads read, beyond⟩
  · exact Or.inr ⟨i, more.writes written, beyond⟩

/-- The outer loop reads where it starts. -/
theorem formatLoop_reads {rounds : Nat} {s' : Printer} (result : s' ∈ formatLoop format bufferSize rounds s) :
    s.traverse ∈ s'.reads := by
  cases rounds with
  | zero => cases result
  | succ rounds =>
      have here : s.traverse ∈ s.look.reads := List.mem_cons_self
      unfold formatLoop at result
      dsimp only at result
      split at result
      · have written := Printer.Extends.writeLiterals format bufferSize (bufferSize - s.p) s.look
        split at result
        · rw [← Option.some.inj result]
          exact written.reads here
        · have rest := Printer.Extends.formatLoop _ _ _ _ s' result
          refine rest.reads ((Printer.Extends.convertSpecifier _ _ _).reads ?_)
          exact List.mem_cons_of_mem _ (written.reads here)
      · rw [← Option.some.inj result]
        exact here

/-- One conversion: the character taken for a `%`, the switch on the next one, and the step behind it. -/
def convertNext (format : Memory) (bufferSize : Nat) (s : Printer) : Printer :=
  (convertSpecifier bufferSize (.ofByte (format s.advance.look.traverse)) s.advance.look).advance

theorem formatLoop_of_stop {rounds : Nat} (stop : ¬ (format s.traverse ≠ 0 ∧ s.p < bufferSize)) :
    formatLoop format bufferSize (rounds + 1) s = some s.look := if_neg stop

theorem formatLoop_of_running (rounds : Nat) {written : Printer} (running : format s.traverse ≠ 0 ∧ s.p < bufferSize)
    (isWritten : written = writeLiterals format bufferSize (bufferSize - s.p) s.look) :
    formatLoop format bufferSize (rounds + 1) s =
      if format written.traverse = 0 then some written
      else formatLoop format bufferSize rounds (convertNext format bufferSize written) := by
  rw [isWritten]
  exact if_pos running

section Next

variable {x c : UInt8}

/-- Behind the last character there is only the NUL, and the cursor passes it. -/
theorem convertNext_last (progress : Progress format bufferSize last [x] out s) :
    (convertNext format bufferSize s).traverse = last + 1 := by
  have here := progress.advance
  have null : format s.advance.look.traverse = 0 := here.spells
  have other : Specifier.ofByte 0 = .other := by decide
  have ends := here.ends
  unfold convertNext
  rw [null, other]
  exact congrArg (· + 1) ends

theorem convertNext_progress (bound : bufferSize < 2 ^ 64)
    (progress : Progress format bufferSize last (x :: c :: rest) out s)
    (room : out.length < bufferSize ∨ (Specifier.ofByte c).checksRoom (s.args.headD default) = true) :
    Progress format bufferSize last rest ((out ++ (Specifier.ofByte c).text (s.args.headD default)).take bufferSize)
        (convertNext format bufferSize s) ∧
      (convertNext format bufferSize s).args = (Specifier.ofByte c).rest s.args := by
  have here := progress.advance.look
  unfold convertNext
  rw [here.spells.1]
  exact ⟨(here.convertSpecifier bound _ room).advance, convertSpecifier_args _ _⟩

theorem convertNext_strays (progress : Progress format bufferSize last (x :: c :: rest) out s)
    (full : out.length = bufferSize) (blind : (Specifier.ofByte c).checksRoom (s.args.headD default) = false) :
    (convertNext format bufferSize s).Strays bufferSize last := by
  have here := progress.advance.look
  unfold convertNext
  rw [here.spells.1]
  exact Or.inr ⟨bufferSize, convertSpecifier_overruns (here.cursor.trans full) blind, Nat.le_refl _⟩

end Next

/-- The loop from a state prints the rest of the format as far as there is room. -/
def Prints (format : Memory) (bufferSize last rounds : Nat) (rest out : List UInt8) (s : Printer) : Prop :=
  ∃ s' ∈ formatLoop format bufferSize rounds s, ∃ rest',
    Progress format bufferSize last rest' ((out ++ render rest s.args).take bufferSize) s' ∧
    ((out ++ render rest s.args).length < bufferSize → s'.args = argsLeft rest s.args)

/-- Printing from a full buffer on is printing nothing. -/
theorem Progress.prints_of_full {rounds : Nat} (progress : Progress format bufferSize last rest out s)
    (full : ¬ out.length < bufferSize) : Prints format bufferSize last (rounds + 1) rest out s := by
  have size : out.length = bufferSize := Nat.le_antisymm progress.fits (Nat.le_of_not_lt full)
  refine ⟨s.look, formatLoop_of_stop fun running => full (progress.cursor ▸ running.2), rest, ?_, fun short => ?_⟩
  · rw [List.take_append_of_le_length (Nat.le_of_eq size.symm), List.take_of_length_le progress.fits]
    exact progress.look
  · rw [List.length_append] at short
    exact absurd (Nat.lt_of_le_of_lt (Nat.le_add_right _ _) short) full

/-- What holds for so many rounds of the outer loop: the text is printed if it is truncated cleanly, and
otherwise the loop strays. -/
def LoopSound (format : Memory) (bufferSize last rounds : Nat) : Prop :=
  ∀ {rest out : List UInt8} {s : Printer}, Progress format bufferSize last rest out s →
    ((out.length < bufferSize → truncatesCleanly rest (bufferSize - out.length) s.args = true) →
      rest.length < rounds → Prints format bufferSize last rounds rest out s) ∧
    (out.length < bufferSize → truncatesCleanly rest (bufferSize - out.length) s.args = false →
      ∀ s' ∈ formatLoop format bufferSize rounds s, s'.Strays bufferSize last)

/-- The round behind the literal text: a conversion, or what a full buffer makes of the next characters. -/
theorem convertNext_spec (bound : bufferSize < 2 ^ 64) {rounds : Nat} (ih : LoopSound format bufferSize last rounds)
    {x : UInt8} (progress : Progress format bufferSize last (x :: rest) out s)
    (ended : out.length = bufferSize ∨ x = byte '%') :
    (truncatesCleanly (x :: rest) (bufferSize - out.length) s.args = true → rest.length < rounds →
      ∃ s' ∈ formatLoop format bufferSize rounds (convertNext format bufferSize s), ∃ rest',
        Progress format bufferSize last rest' ((out ++ render (x :: rest) s.args).take bufferSize) s' ∧
        ((out ++ render (x :: rest) s.args).length < bufferSize → s'.args = argsLeft (x :: rest) s.args)) ∧
    (truncatesCleanly (x :: rest) (bufferSize - out.length) s.args = false →
      ∀ s' ∈ formatLoop format bufferSize rounds (convertNext format bufferSize s), s'.Strays bufferSize last) := by
  have fits := progress.fits
  cases rest with
  | nil =>
      -- the step behind the switch passes the NUL
      have unclean : truncatesCleanly [x] (bufferSize - out.length) s.args = false := by
        rcases ended with full | percent
        · simp [truncatesCleanly, full]
        · simp [truncatesCleanly, percent]
      refine ⟨fun clean => absurd (unclean.symm.trans clean) Bool.false_ne_true, fun _ s' result => ?_⟩
      refine Or.inl ⟨last + 1, ?_, Nat.lt_succ_self last⟩
      rw [← convertNext_last progress]
      exact formatLoop_reads result
  | cons c rest =>
      obtain ⟨arg, isArg⟩ : ∃ arg, arg = s.args.headD default := ⟨_, rfl⟩
      obtain ⟨text, isText⟩ : ∃ text, text = (Specifier.ofByte c).text arg := ⟨_, rfl⟩
      by_cases full : out.length = bufferSize
      · -- nothing more is written, unless the switch does not look
        have stalled : truncatesCleanly (x :: c :: rest) (bufferSize - out.length) s.args =
            (Specifier.ofByte c).checksRoom arg := by
          rw [truncatesCleanly, if_pos (by omega), isArg]
        rw [stalled]
        refine ⟨fun checks enough => ?_, fun blind s' result => ?_⟩
        · rw [isArg] at checks
          obtain ⟨next, nextArgs⟩ := convertNext_progress bound progress (Or.inr checks)
          rw [List.take_append_of_le_length (Nat.le_of_eq full.symm), List.take_of_length_le fits] at next
          obtain ⟨s', result, rest', done, -⟩ := (ih next).1 (fun room => absurd full (Nat.ne_of_lt room))
            (by rw [List.length_cons] at enough; omega)
          refine ⟨s', result, rest', ?_, fun short => ?_⟩
          · rw [List.take_append_of_le_length (Nat.le_of_eq full.symm)] at done ⊢
            exact done
          · rw [List.length_append] at short
            omega
        · rw [isArg] at blind
          exact (convertNext_strays progress full blind).later (Printer.Extends.formatLoop _ _ _ _ s' result)
      · have room : out.length < bufferSize := Nat.lt_of_le_of_ne fits full
        have percent : x = byte '%' := ended.resolve_left full
        obtain ⟨next, nextArgs⟩ := convertNext_progress bound progress (Or.inl room)
        have rendered : render (x :: c :: rest) s.args = text ++ render rest ((Specifier.ofByte c).rest s.args) := by
          rw [render, if_pos percent, isText, isArg]
        have left : argsLeft (x :: c :: rest) s.args = argsLeft rest ((Specifier.ofByte c).rest s.args) := by
          rw [argsLeft, if_pos percent]
        have clean : truncatesCleanly (x :: c :: rest) (bufferSize - out.length) s.args =
            (decide (bufferSize - out.length ≤ text.length) ||
              truncatesCleanly rest (bufferSize - out.length - text.length) ((Specifier.ofByte c).rest s.args)) := by
          rw [truncatesCleanly, if_neg (by omega), if_pos percent, isText, isArg]
        rw [← isArg, ← isText] at next
        have size : ((out ++ text).take bufferSize).length = min bufferSize (out.length + text.length) := by
          rw [List.length_take, List.length_append]
        rw [clean, rendered, left]
        obtain ⟨good, bad⟩ := ih next
        rw [nextArgs, size] at good bad
        have same : bufferSize - min bufferSize (out.length + text.length) = bufferSize - out.length - text.length := by
          omega
        rw [same] at good bad
        refine ⟨fun isClean enough => ?_, fun unclean => ?_⟩
        · rw [Bool.or_eq_true, decide_eq_true_eq] at isClean
          obtain ⟨s', result, rest', done, argsDone⟩ := good (fun short => isClean.resolve_left (by omega))
            (by rw [List.length_cons] at enough; omega)
          rw [nextArgs, take_take_append, List.append_assoc] at done
          refine ⟨s', result, rest', done, fun short => ?_⟩
          rw [nextArgs] at argsDone
          refine argsDone ?_
          rw [List.length_append, size]
          rw [List.length_append, List.length_append] at short
          omega
        · rw [Bool.or_eq_false_iff, decide_eq_false_iff_not] at unclean
          exact bad (by omega) unclean.2

/-- The outer loop writes the text of the format as far as there is room, if it is truncated cleanly; and
it strays if it is not. -/
theorem formatLoop_spec (bound : bufferSize < 2 ^ 64) (rounds : Nat) : LoopSound format bufferSize last rounds := by
  induction rounds with
  | zero =>
      intro rest out s progress
      exact ⟨fun _ few => absurd few (Nat.not_lt_zero _), fun _ _ s' none => by cases none⟩
  | succ rounds ih =>
      intro rest out s progress
      by_cases room : out.length < bufferSize
      swap
      · exact ⟨fun _ _ => progress.prints_of_full room, fun some => absurd some room⟩
      cases rest with
      | nil =>
          have null : format s.traverse = 0 := progress.spells
          have stop : formatLoop format bufferSize (rounds + 1) s = some s.look :=
            formatLoop_of_stop fun running => running.1 null
          refine ⟨fun _ _ => ⟨s.look, stop, [], ?_, fun _ => rfl⟩, fun _ unclean => by cases unclean⟩
          rw [render, List.append_nil, List.take_of_length_le progress.fits]
          exact progress.look
      | cons y rest =>
          obtain ⟨written, isWritten⟩ : ∃ written,
            written = writeLiterals format bufferSize (bufferSize - s.p) s.look := ⟨_, rfl⟩
          have running : format s.traverse ≠ 0 ∧ s.p < bufferSize := by
            rw [progress.spells.1, progress.cursor]
            exact ⟨progress.spells.2.1, room⟩
          have unfolded := formatLoop_of_running rounds running isWritten
          obtain ⟨text, rest', isRest, literal, progress', args, ended⟩ := writeLiterals_spec bound (bufferSize - s.p)
            progress.look (by rw [progress.cursor]; omega)
          rw [← isWritten] at progress' args
          have args' : written.args = s.args := args
          obtain ⟨rendered, left, clean⟩ := literal_append literal rest' s.args
          have fits := progress'.fits
          rw [List.length_append] at fits
          have less : bufferSize - out.length - text.length = bufferSize - (out ++ text).length := by
            rw [List.length_append]
            omega
          rw [isRest, Prints, unfolded, clean _ (by omega), rendered, left, ← List.append_assoc, ← args', less]
          cases rest' with
          | nil =>
              have null : format written.traverse = 0 := progress'.spells
              rw [if_pos null, render, List.append_nil (out ++ text), List.take_of_length_le progress'.fits]
              exact ⟨fun _ _ => ⟨written, rfl, [], progress', fun _ => rfl⟩, fun _ unclean => by cases unclean⟩
          | cons x rest' =>
              have present : format written.traverse ≠ 0 := by
                rw [progress'.spells.1]
                exact progress'.spells.2.1
              have stopped : (out ++ text).length = bufferSize ∨ x = byte '%' := by
                rcases ended with none | full | ⟨rest'', percent⟩
                · cases none
                · exact Or.inl full
                · exact Or.inr (List.cons.inj percent).1
              obtain ⟨good, bad⟩ := convertNext_spec bound ih progress' stopped
              rw [if_neg present]
              refine ⟨fun isClean enough => good (isClean room) ?_, fun _ => bad⟩
              rw [List.length_append, List.length_cons] at enough
              omega

/-! ## `vsnprintf` -/

/-- The state `vsnprintf` starts in. -/
def Printer.start (buffer : Memory) (args : List VarArg) : Printer :=
  { traverse := 0, p := 0, buffer := buffer, args := args, reads := [], writes := [] }

/-- The bytes left in the buffer: the first ones of the text, one byte less than the buffer holds. -/
theorem Progress.terminate {text : List UInt8} (progress : Progress format bufferSize last rest (text.take bufferSize) s)
    (positive : 1 ≤ bufferSize) (bound : bufferSize < 2 ^ 64) {done : Printer} (isDone : done = terminate bufferSize s) :
    done.p = (text.take (bufferSize - 1)).length ∧ done.p ≤ bufferSize - 1 ∧ done.args = s.args ∧
      (∀ i c, (text.take (bufferSize - 1))[i]? = some c → done.buffer i = c) ∧ done.buffer done.p = 0 ∧
      (∀ i ∈ done.reads, i ≤ last) ∧ ∀ i ∈ done.writes, i < bufferSize ∧ i ≤ text.length := by
  have cursor := progress.cursor
  rw [List.length_take] at cursor
  have position : done.p = (text.take (bufferSize - 1)).length := by
    rw [isDone, List.length_take]
    unfold BubackOS.Libc.terminate
    dsimp only
    split
    · rename_i full
      rw [full, wrapSub_of_le positive bound]
      omega
    · omega
  have small : done.p ≤ bufferSize - 1 := by
    rw [position, List.length_take]
    omega
  refine ⟨position, small, by rw [isDone]; rfl, fun i c found => ?_, ?_, ?_, fun i member => ?_⟩
  · have inside := (List.getElem?_eq_some_iff.mp found).1
    have other : i ≠ done.p := by omega
    have earlier : (text.take bufferSize)[i]? = some c := by
      rw [List.getElem?_take] at found ⊢
      split at found
      · rw [if_pos (by omega), found]
      · cases found
    rw [isDone] at other ⊢
    exact (if_neg other).trans (progress.stored i c earlier)
  · rw [isDone]
    exact if_pos rfl
  · rw [isDone]
    exact progress.reads
  · have all : i = done.p ∨ i ∈ s.writes := by
      rw [isDone] at member ⊢
      exact List.mem_cons.mp member
    rcases all with rfl | before
    · rw [position, List.length_take]
      omega
    · have inside := progress.writes i before
      rw [List.length_take] at inside
      omega

theorem Progress.start {text : List UInt8} (spells : Spells format 0 text) (buffer : Memory) (args : List VarArg) :
    Progress format bufferSize text.length text [] (.start buffer args) where
  spells := spells
  ends := Nat.zero_add _
  cursor := rfl
  fits := Nat.zero_le _
  stored := fun i c none => by cases none
  reads := fun i none => by cases none
  writes := fun i none => by cases none

theorem vsnprintf_eq {rounds : Nat} {buffer : Memory} {args : List VarArg} :
    vsnprintf rounds buffer bufferSize format args =
    (formatLoop format bufferSize rounds (.start buffer args)).map fun s =>
      (asInt (terminate bufferSize s).p, terminate bufferSize s) := rfl

/-- With room for all of it the text is truncated nowhere. -/
theorem truncatesCleanly_of_complete : ∀ {text : List UInt8} {room : Nat} {args : List VarArg}, complete text = true →
    (render text args).length < room → truncatesCleanly text room args = true
  | [], _, _, _, _ => rfl
  | [x], room, args, whole, fits => by
      have literal : x ≠ byte '%' := of_decide_eq_true whole
      have some : room ≠ 0 := Nat.ne_of_gt (Nat.zero_lt_of_lt fits)
      simp [truncatesCleanly, literal, some]
  | x :: c :: text, room, args, whole, fits => by
      have some : room ≠ 0 := Nat.ne_of_gt (Nat.zero_lt_of_lt fits)
      by_cases percent : x = byte '%'
      · rw [complete, if_pos percent] at whole
        rw [render, if_pos percent, List.length_append] at fits
        rw [truncatesCleanly, if_neg some, if_pos percent, Bool.or_eq_true]
        exact Or.inr (truncatesCleanly_of_complete whole (by omega))
      · rw [complete, if_neg percent] at whole
        rw [render_cons percent, List.length_cons] at fits
        rw [truncatesCleanly_cons percent some]
        exact truncatesCleanly_of_complete whole (by omega)

/-- More rounds change nothing once the loop has ended. -/
theorem formatLoop_mono (more rounds : Nat) : ∀ {s s' : Printer},
    s' ∈ formatLoop format bufferSize rounds s → s' ∈ formatLoop format bufferSize (rounds + more) s := by
  induction rounds with
  | zero => exact fun none => by cases none
  | succ rounds ih =>
      intro s s' result
      rw [Nat.succ_add]
      unfold formatLoop at result ⊢
      dsimp only at result ⊢
      split
      · rename_i running
        rw [if_pos running] at result
        split
        · rename_i null
          rw [if_pos null] at result
          exact result
        · rename_i present
          rw [if_neg present] at result
          exact ih result
      · rename_i stop
        rw [if_neg stop] at result
        exact result

/-- The run stays within the buffer and the format, and leaves the first bytes of the text, terminated by
a NUL at the index it returns. -/
structure Truncated (text : List UInt8) (bufferSize last : Nat) (result : Int × Printer) : Prop where
  writes : ∀ i ∈ result.2.writes, i < bufferSize
  reads : ∀ i ∈ result.2.reads, i ≤ last
  stored : ∃ left, left <+: text ∧ left.length = result.2.p ∧ ∀ i c, left[i]? = some c → result.2.buffer i = c
  terminated : result.2.buffer result.2.p = 0
  length : result.1 = result.2.p
  short : result.2.p ≤ bufferSize - 1

section Runs

variable {text : List UInt8} (spells : Spells format 0 text) (buffer : Memory) (bound : bufferSize < 2 ^ 64)
  (args : List VarArg)

include spells bound

/-- A format that is truncated cleanly, in rounds enough. -/
theorem formatLoop_clean (clean : truncatesCleanly text bufferSize args = true) {rounds : Nat}
    (enough : text.length < rounds) :
    ∃ s' ∈ formatLoop format bufferSize rounds (.start buffer args), ∃ rest',
      Progress format bufferSize text.length rest' ((render text args).take bufferSize) s' ∧
      ((render text args).length < bufferSize → s'.args = argsLeft text args) :=
  (formatLoop_spec bound rounds (.start spells buffer args)).1 (fun _ => clean) enough

theorem formatLoop_unclean (positive : 1 ≤ bufferSize) (unclean : truncatesCleanly text bufferSize args = false)
    {rounds : Nat} {s' : Printer} (result : s' ∈ formatLoop format bufferSize rounds (.start buffer args)) :
    s'.Strays bufferSize text.length :=
  (formatLoop_spec bound rounds (.start spells buffer args)).2 positive unclean s' result

/-- For every format, all arguments and every buffer: `vsnprintf` returns within the buffer and the format,
with a prefix of the text and its length, exactly when the end of the buffer does no harm and the length is
one that an `int` can hold. -/
theorem vsnprintf_truncated_iff (positive : 1 ≤ bufferSize) :
    (∃ rounds, ∃ result ∈ vsnprintf rounds buffer bufferSize format args,
      Truncated (render text args) bufferSize text.length result) ↔
    truncatesCleanly text bufferSize args = true ∧ min (render text args).length (bufferSize - 1) < 2 ^ 31 := by
  constructor
  · rintro ⟨rounds, result, returned, truncated⟩
    rw [vsnprintf_eq] at returned
    obtain ⟨s, ended, rfl⟩ := Option.mem_map.mp returned
    cases clean : truncatesCleanly text bufferSize args with
    | false =>
        have more : s.Extends (terminate bufferSize s) := ⟨List.Subset.refl _, List.subset_cons_self _ _⟩
        rcases (formatLoop_unclean spells buffer bound args positive clean ended).later more with
          ⟨i, read, beyond⟩ | ⟨i, written, beyond⟩
        · exact absurd beyond (Nat.not_lt_of_le (truncated.reads i read))
        · exact absurd beyond (Nat.not_le_of_lt (truncated.writes i written))
    | true =>
        obtain ⟨s', ended', rest', progress, -⟩ := formatLoop_clean spells buffer bound args clean
          (Nat.lt_succ_of_le (Nat.le_add_left text.length rounds))
        have same : s = s' := by
          have later : s ∈ formatLoop format bufferSize (rounds + text.length + 1) (.start buffer args) :=
            formatLoop_mono (text.length + 1) rounds ended
          exact Option.some.inj (later.symm.trans ended')
        obtain ⟨position, -⟩ := progress.terminate positive bound rfl
        rw [← same, List.length_take, Nat.min_comm] at position
        refine ⟨rfl, ?_⟩
        rw [← position]
        exact asInt_eq_iff.mp truncated.length
  · rintro ⟨clean, small⟩
    obtain ⟨s', ended, rest', progress, -⟩ := formatLoop_clean spells buffer bound args clean (Nat.lt_succ_self _)
    obtain ⟨position, short, -, stored, terminated, reads, writes⟩ := progress.terminate positive bound rfl
    refine ⟨text.length + 1, _, Option.mem_map.mpr ⟨s', ended, rfl⟩, ?_⟩
    refine ⟨fun i member => (writes i member).1, reads, ⟨_, List.take_prefix _ _, position.symm, stored⟩, terminated,
      ?_, short⟩
    refine asInt_eq_iff.mpr ?_
    rw [position, List.length_take, Nat.min_comm]
    exact small

/-- For every format whose `%` are all followed by a character, all arguments and every buffer with room for
the text: `vsnprintf` returns, with exactly the text and a NUL written, the arguments consumed in order, and
the length as an `int`. -/
theorem vsnprintf_renders (whole : complete text = true) (room : (render text args).length < bufferSize) {rounds : Nat}
    (enough : text.length < rounds) :
    ∃ result ∈ vsnprintf rounds buffer bufferSize format args,
      (∀ i c, (render text args)[i]? = some c → result.2.buffer i = c) ∧
      result.2.buffer (render text args).length = 0 ∧
      (∀ i ∈ result.2.writes, i ≤ (render text args).length) ∧ result.2.args = argsLeft text args ∧
      result.1 = asInt (render text args).length ∧
      ((render text args).length < 2 ^ 31 → result.1 = (render text args).length) := by
  obtain ⟨s', ended, rest', progress, left⟩ := formatLoop_clean spells buffer bound args
    (truncatesCleanly_of_complete whole room) enough
  obtain ⟨position, -, args', stored, terminated, -, writes⟩ := progress.terminate (by omega) bound rfl
  rw [List.take_of_length_le (by omega)] at position stored
  refine ⟨_, Option.mem_map.mpr ⟨s', ended, rfl⟩, stored, ?_, fun i member => (writes i member).2,
    args'.trans (left room), ?_, fun small => ?_⟩
  · rw [← position]
    exact terminated
  · rw [position]
  · rw [position]
    exact asInt_eq_iff.mpr small

end Runs

/-! ## Samples -/

theorem vsnprintf_truncated_iff_sample :
    truncatesCleanly (literal "d=%d") 5 [{ word := 123456789, text := [], terminated := List.not_mem_nil }] = true ∧
    ∃ rounds, ∃ result ∈ vsnprintf rounds (fun _ => 64) 5 (cstring (literal "d=%d"))
        [{ word := 123456789, text := [], terminated := List.not_mem_nil }],
      Truncated (render (literal "d=%d") [{ word := 123456789, text := [], terminated := List.not_mem_nil }]) 5 4
        result := by
  refine ⟨by decide +kernel, (vsnprintf_truncated_iff (spells_cstring (by decide)) _ (by decide) _ (by decide)).mpr
    ⟨by decide +kernel, ?_⟩⟩
  exact Nat.lt_of_le_of_lt (Nat.min_le_right _ _) (by decide)

/-- A buffer of one byte: the letter fills it, and the conversion behind it writes at the indices one and
two. -/
theorem vsnprintf_overruns : ((vsnprintf 3 (fun _ => 64) 1 (cstring (literal "a%c"))
    [{ word := 98, text := [], terminated := List.not_mem_nil }]).map fun result => result.2.writes) = some [2, 1, 0] := by
  decide +kernel

theorem vsnprintf_renders_sample :
    ∃ result ∈ vsnprintf 8 (fun _ => 64) 100 (cstring (literal "%d %x%%"))
        [{ word := 2 ^ 31, text := [], terminated := List.not_mem_nil },
          { word := 9845, text := [], terminated := List.not_mem_nil }],
      result.2.buffer 0 = byte '-' := by
  have spells : Spells (cstring (literal "%d %x%%")) 0 (literal "%d %x%%") := spells_cstring (by decide)
  obtain ⟨result, returned, stored, -⟩ := vsnprintf_renders spells (fun _ => 64) (by decide : 100 < 2 ^ 64)
    [{ word := 2 ^ 31, text := [], terminated := List.not_mem_nil },
      { word := 9845, text := [], terminated := List.not_mem_nil }] (by decide) (by decide +kernel)
    (by decide : (literal "%d %x%%").length < 8)
  exact ⟨result, returned, stored 0 _ (by decide +kernel)⟩

/-- Literal text has room for itself. -/
theorem vsnprintf_literal {text : List UInt8} (terminated : 0 ∉ text) (literal : byte '%' ∉ text)
    (bound : text.length + 1 < 2 ^ 64) (buffer : Memory) :
    render text [] = text ∧ ∃ result ∈ vsnprintf (text.length + 1) buffer (text.length + 1) (cstring text) [],
      result.1 = asInt text.length := by
  obtain ⟨rendered, -, clean⟩ := literal_append literal [] []
  rw [List.append_nil, render, List.append_nil] at rendered
  rw [List.append_nil] at clean
  obtain ⟨s', ended, rest', progress, -⟩ := formatLoop_clean (spells_cstring terminated) buffer bound []
    (clean _ (Nat.le_succ _)) (Nat.lt_succ_self _)
  obtain ⟨position, -⟩ := progress.terminate (Nat.le_add_left 1 _) bound rfl
  rw [rendered, Nat.add_sub_cancel, List.take_length] at position
  refine ⟨rendered, _, Option.mem_map.mpr ⟨s', ended, rfl⟩, ?_⟩
  rw [position]

/-- Two gigabytes of one letter: all is written, and the length is returned as a negative number. -/
theorem vsnprintf_length_wraps :
    (render (List.replicate (2 ^ 31) (byte 'a')) []).length = 2 ^ 31 ∧
    ∃ result ∈ vsnprintf (2 ^ 31 + 1) (fun _ => 0) (2 ^ 31 + 1) (cstring (List.replicate (2 ^ 31) (byte 'a'))) [],
      result.1 = -2 ^ 31 := by
  have only : ∀ c, c ≠ byte 'a' → c ∉ List.replicate (2 ^ 31) (byte 'a') := fun c other member =>
    other (List.eq_of_mem_replicate member)
  have length : (List.replicate (2 ^ 31) (byte 'a')).length = 2 ^ 31 := List.length_replicate
  obtain ⟨rendered, result, returned, negative⟩ := vsnprintf_literal (only 0 (by decide)) (only (byte '%') (by decide))
    (by rw [length]; decide) (fun _ => 0)
  rw [length] at returned negative
  refine ⟨by rw [rendered, length], result, returned, ?_⟩
  rw [negative]
  decide

end BubackOS.Libc
