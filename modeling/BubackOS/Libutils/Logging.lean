import BubackOS.Libc.PrintReach
import BubackOS.Library.Repetitions

/-!
# The log

`libutils/src/logging.c`.  The text of a message is formatted into a buffer on the stack and
compared with the static buffer `last_message`; both are in one memory, at the addresses
`text` and `lastMessage`.  The calls of `logging_write` are noted: a message with its level, or
the report of repetitions that `should_write` makes at the level `LOG_INFO`.
-/

namespace BubackOS.Logging

open Library Libc

/-! ## The functions -/

/-- `LOGGING_MAX_LINE`. -/
def loggingMaxLine : Nat := 255

/-- `LOGGING_AGGREGATE_MESSAGES`. -/
def loggingAggregateMessages : Nat := 30

/-- `LOG_TRACE`, `LOG_INFO` and `LOG_ERROR`. -/
def logTrace : Int := 0

def logInfo : Int := 2

def logError : Int := 4

/-- `LOGGING_LEVEL_NAMES`. -/
def loggingLevelNames : List (List UInt8) :=
  [literal "TRACE", literal "DEBUG", literal "INFO ", literal "WARN ", literal "ERROR", literal "FATAL"]

/-- A call of `logging_write`. -/
inductive LogLine where
  | message (level : Int) (text : List UInt8)
  | report (count : Nat)
  deriving DecidableEq

namespace LogLine

/-- The level, which is an index of `LOGGING_LEVEL_NAMES`. -/
def level : LogLine → Int
  | message level _ => level
  | report _ => logInfo

/-- The text; a report is printed with `%d`. -/
def text : LogLine → List UInt8
  | message _ text => text
  | report count => render (literal ">> last message repeat more %d times")
      [{ word := UInt64.ofNat count, text := [], terminated := nul_not_mem_nil }]

end LogLine

/-- `L`, `repetitions`, the memory with the buffers, and the lines. -/
structure Logger where
  level : Int
  quiet : Int
  repetitions : Nat
  mem : Memory
  lines : List LogLine

/-- The static variables at the beginning, in cleared memory. -/
def Logger.initial : Logger := { level := logTrace, quiet := 0, repetitions := 0, mem := fun _ => 0, lines := [] }

/-- `log_set_level`. -/
def logSetLevel (level : Int) (l : Logger) : Logger := { l with level := level }

/-- `log_set_quiet`. -/
def logSetQuiet (enable : Int) (l : Logger) : Logger := { l with quiet := if enable ≠ 0 then 1 else 0 }

/-- The string at an address, of less than `bound` characters. -/
def stringAt (m : Memory) : Nat → Nat → List UInt8
  | 0, _ => []
  | bound + 1, a => if m a = 0 then [] else m a :: stringAt m bound (a + 1)

/-- `logging_format` for the buffer at `text`: the size and the memory. -/
def loggingFormat (text : Nat) (format : List UInt8) (args : List VarArg) (m : Memory) : Option (Nat × Memory) :=
  (vsnprintf (format.length + 1) (fun i => m (text + i)) loggingMaxLine (cstring format) args).map fun formatted =>
    let size := (min formatted.1 (loggingMaxLine : Int)).toNat
    (size, Memory.storeByte (fun a => if text ≤ a then formatted.2.buffer (a - text) else m a) (text + size) 0)

/-- `logging_write`. -/
def loggingWrite (line : LogLine) (l : Logger) : Logger := { l with lines := l.lines ++ [line] }

/-- `should_write`. -/
def shouldWrite (lastMessage text textSize : Nat) (l : Logger) : Bool × Logger :=
  if strncmp l.mem text lastMessage textSize = 0 ∧ l.repetitions < loggingAggregateMessages then
    (false, { l with repetitions := l.repetitions + 1 })
  else
    let reported := if l.repetitions > 1 then loggingWrite (.report (l.repetitions - 1)) l else l
    (true, { reported with mem := (strncpy reported.mem lastMessage text loggingMaxLine).2, repetitions := 1 })

/-- `logging`. -/
def logging (lastMessage text : Nat) (level : Int) (format : List UInt8) (args : List VarArg) (l : Logger) :
    Option Logger :=
  if level < l.level then some l
  else if l.quiet ≠ 0 then some l
  else
    (loggingFormat text format args l.mem).map fun formatted =>
      let written := shouldWrite lastMessage text formatted.1 { l with mem := formatted.2 }
      if written.1 then loggingWrite (.message level (stringAt written.2.mem (loggingMaxLine + 1) text)) written.2
      else written.2

/-! ## Formatted messages -/

/-- The arguments of `logging`.  The format is given with the bytes that lie behind its NUL, as `vsnprintf` may
get there. -/
structure LogMessage where
  level : Int
  format : List UInt8
  args : List VarArg

namespace LogMessage

/-- The bytes `vsnprintf` leaves before its NUL, cut as `logging_format` cuts them. -/
def bytes (msg : LogMessage) : List UInt8 :=
  match vsnprintf (msg.format.length + 1) (fun _ => 0) loggingMaxLine (cstring msg.format) msg.args with
  | none => []
  | some result => (List.range (min result.1 (loggingMaxLine : Int)).toNat).map fun i => result.2.buffer i

/-- The string in the buffer: `%c` may have put a NUL between the bytes. -/
def text (msg : LogMessage) : List UInt8 := msg.bytes.takeWhile (· ≠ 0)

def size (msg : LogMessage) : Nat := msg.bytes.length

theorem text_length (msg : LogMessage) : msg.text.length ≤ msg.size := (List.takeWhile_prefix _).length_le

/-- The bytes do not depend on what the buffer held. -/
theorem bytes_of_returned {msg : LogMessage} {buffer : Memory} {result : Int × Printer}
    (returned : result ∈ vsnprintf (msg.format.length + 1) buffer loggingMaxLine (cstring msg.format) msg.args) :
    min result.1 (loggingMaxLine : Int) = msg.size ∧ ∀ i c, msg.bytes[i]? = some c → result.2.buffer i = c := by
  obtain ⟨blank, returned'⟩ := vsnprintf_returns msg.format (fun _ => 0) loggingMaxLine msg.args
  obtain ⟨same, alike⟩ := vsnprintf_alike (by decide) (by decide) returned returned'
  obtain ⟨isLength, -⟩ := vsnprintf_kept (by decide) returned (by decide)
  have isBytes : msg.bytes = (List.range (min result.1 (loggingMaxLine : Int)).toNat).map
      (fun i => blank.2.buffer i) := by
    rw [bytes, returned', same]
  refine ⟨?_, fun i c found => ?_⟩
  · rw [size, isBytes, List.length_map, List.length_range, isLength]
    omega
  · rw [isBytes, List.getElem?_map] at found
    obtain ⟨j, inside, rfl⟩ := Option.map_eq_some_iff.mp found
    obtain ⟨short, rfl⟩ := List.getElem?_eq_some_iff.mp inside
    rw [List.length_range, isLength] at short
    rw [List.getElem_range]
    exact alike.buffer i (by omega)

theorem size_le (msg : LogMessage) : msg.size ≤ 255 := by
  obtain ⟨result, returned⟩ := vsnprintf_returns msg.format (fun _ => 0) loggingMaxLine msg.args
  have isSize := (bytes_of_returned returned).1
  have least : min result.1 (loggingMaxLine : Int) ≤ 255 := min_le_right _ _
  omega

end LogMessage

/-- The place of the buffer on the stack.  A conversion at the end of the buffer may store up to `overshoot` bytes
behind it; `last_message` is not there. -/
structure Frame (lastMessage : Nat) where
  text : Nat
  apart : text + loggingMaxLine + overshoot < lastMessage ∨ lastMessage + 256 ≤ text
  memory : text + 256 ≤ 2 ^ 64
  static : lastMessage + 256 ≤ 2 ^ 64

/-- A string up to the first NUL. -/
theorem spells_takeWhile (bytes : List UInt8) : ∀ {m : Memory} {a : Nat}, (∀ i c, bytes[i]? = some c → m (a + i) = c) →
    m (a + bytes.length) = 0 → Spells m a (bytes.takeWhile (· ≠ 0)) := by
  induction bytes with
  | nil => exact fun _ zero => zero
  | cons x bytes ih =>
      intro m a stored zero
      have first : m a = x := stored 0 x rfl
      by_cases nul : x = 0
      · rw [List.takeWhile_cons_of_neg (by simp [nul])]
        exact first.trans nul
      · rw [List.takeWhile_cons_of_pos (by simp [nul])]
        refine ⟨first, nul, ih (fun i c found => ?_) ?_⟩
        · rw [Nat.add_assoc, Nat.add_comm 1]
          exact stored (i + 1) c found
        · rw [Nat.add_assoc, Nat.add_comm 1]
          exact zero

theorem stringAt_eq {m : Memory} (text : List UInt8) : ∀ {bound a : Nat}, Spells m a text → text.length < bound →
    stringAt m bound a = text := by
  induction text with
  | nil =>
      intro bound a spells short
      obtain ⟨bound, rfl⟩ := Nat.exists_eq_succ_of_ne_zero (Nat.ne_of_gt short)
      exact if_pos spells
  | cons x text ih =>
      intro bound a spells short
      obtain ⟨bound, rfl⟩ := Nat.exists_eq_succ_of_ne_zero (Nat.ne_of_gt (Nat.zero_lt_of_lt short))
      rw [stringAt, spells.1, if_neg spells.2.1, ih spells.2.2 (Nat.lt_of_succ_lt_succ short)]

/-- The memory `logging_format` leaves is that of `vsnprintf`, and there is a NUL at the size. -/
theorem loggingFormat_eq {text : Nat} {format : List UInt8} {args : List VarArg} {m : Memory} {result : Int × Printer}
    (returned : vsnprintf (format.length + 1) (fun i => m (text + i)) loggingMaxLine (cstring format) args = some result)
    {size : Nat} (isSize : min result.1 (loggingMaxLine : Int) = size) :
    ∃ m', loggingFormat text format args m = some (size, m') ∧
      (∀ i, i ≠ size → m' (text + i) = result.2.buffer i) ∧ m' (text + size) = 0 ∧ ∀ a, a < text → m' a = m a := by
  rw [loggingFormat, returned, Option.map_some]
  dsimp only
  rw [isSize, Int.toNat_natCast]
  refine ⟨_, rfl, fun i other => ?_, if_pos rfl, fun a below => ?_⟩
  · unfold Memory.storeByte
    dsimp only
    rw [if_neg (by omega), if_pos (Nat.le_add_right text i), Nat.add_sub_cancel_left]
  · unfold Memory.storeByte
    dsimp only
    rw [if_neg (by omega), if_neg (by omega)]

/-- `logging_format` leaves the string of a message in the buffer and returns its size; the bytes before the buffer
stay, and those that no conversion reaches. -/
theorem loggingFormat_spec (msg : LogMessage) (text : Nat) (m : Memory) :
    ∃ m', loggingFormat text msg.format msg.args m = some (msg.size, m') ∧ Spells m' text msg.text ∧
      ∀ a, a < text ∨ text + loggingMaxLine + overshoot < a → m' a = m a := by
  obtain ⟨result, returned⟩ := vsnprintf_returns msg.format (fun i => m (text + i)) loggingMaxLine msg.args
  obtain ⟨isSize, stored⟩ := LogMessage.bytes_of_returned returned
  obtain ⟨-, near, -, kept⟩ := vsnprintf_kept (by decide) returned (by decide)
  obtain ⟨m', formatted, buffer, zero, below⟩ := loggingFormat_eq returned isSize
  have small := msg.size_le
  refine ⟨m', formatted, spells_takeWhile msg.bytes (fun i c found => ?_) zero, fun a outside => ?_⟩
  · have inside := (List.getElem?_eq_some_iff.mp found).1
    rw [buffer i (Nat.ne_of_lt inside)]
    exact stored i c found
  · rcases outside with before | behind
    · exact below a before
    · obtain ⟨i, rfl⟩ : ∃ i, a = text + i := ⟨a - text, by omega⟩
      have far : 255 < i := by
        unfold loggingMaxLine at behind
        omega
      rw [buffer i (by omega)]
      exact kept i (Nat.le_of_lt far) (by omega)

/-! ## The log as a compressor -/

def LogLine.notice : LogLine → Notice (List UInt8)
  | message _ text => .item text
  | report count => .again count

/-- A message is taken for every text that begins with as many of its characters as it has. -/
def LogMessage.arrival (msg : LogMessage) : Arrival (List UInt8) where
  item := msg.text
  same last := decide (msg.text = last.take msg.size)

/-- `last_message` holds the text that is remembered, and the lines are the output. -/
structure Mirrors (lastMessage : Nat) (l : Logger) (r : Repetitions (List UInt8)) : Prop where
  spells : Spells l.mem lastMessage r.remembered
  short : r.remembered.length ≤ 255
  last : l.mem (lastMessage + 255) = 0
  count : l.repetitions = r.count
  lines : l.lines.map LogLine.notice = r.out

section Step

variable {lastMessage : Nat} {l : Logger} {r : Repetitions (List UInt8)}

/-- The test of `should_write`. -/
theorem compares_iff (frame : Frame lastMessage) (mirrors : Mirrors lastMessage l r) (msg : LogMessage)
    (spells : Spells l.mem frame.text msg.text) :
    (strncmp l.mem frame.text lastMessage msg.size = 0 ∧ l.repetitions < loggingAggregateMessages) ↔
      r.holds loggingAggregateMessages msg.arrival = true := by
  have length := msg.text_length
  have small := msg.size_le
  have memory := frame.memory
  have static := frame.static
  have short := mirrors.short
  rw [strncmp_eq_zero_iff spells mirrors.spells (by omega) (by omega), List.take_of_length_le length, mirrors.count,
    Repetitions.holds, Bool.and_eq_true, decide_eq_true_iff]
  exact and_congr_left' (decide_eq_true_iff).symm

/-- Formatting leaves `last_message` alone. -/
theorem Mirrors.formatted (frame : Frame lastMessage) (mirrors : Mirrors lastMessage l r) {m : Memory}
    (kept : ∀ a, a < frame.text ∨ frame.text + loggingMaxLine + overshoot < a → m a = l.mem a) :
    Mirrors lastMessage { l with mem := m } r := by
  have apart := frame.apart
  have short := mirrors.short
  exact ⟨mirrors.spells.moved fun i within => kept _ (by omega), short, (kept _ (by omega)).trans mirrors.last,
    mirrors.count, mirrors.lines⟩

/-- The copy to `last_message` takes the text and leaves the buffer as it is.  The last byte of `last_message` is
never written. -/
theorem copied_spells (frame : Frame lastMessage) {m : Memory} (msg : LogMessage)
    (spells : Spells m frame.text msg.text) (last : m (lastMessage + 255) = 0) :
    Spells (strncpy m lastMessage frame.text loggingMaxLine).2 lastMessage msg.text ∧
      (strncpy m lastMessage frame.text loggingMaxLine).2 (lastMessage + 255) = 0 ∧
      Spells (strncpy m lastMessage frame.text loggingMaxLine).2 frame.text msg.text := by
  have length := msg.text_length
  have small := msg.size_le
  have apart := frame.apart
  have memory := frame.memory
  have static := frame.static
  unfold loggingMaxLine at apart ⊢
  obtain ⟨copied, kept⟩ := strncpy_spells (d := lastMessage) (n := 255) spells (by omega) (fun _ => last)
    (fun i within => by omega) (by omega) (by omega) (by omega)
  exact ⟨copied, (kept _ (by omega)).trans last, spells.moved fun i within => kept _ (by omega)⟩

/-- `should_write` with the text in the buffer, and the line that is written behind it. -/
theorem written_mirrors (frame : Frame lastMessage) (mirrors : Mirrors lastMessage l r) (msg : LogMessage)
    (spells : Spells l.mem frame.text msg.text) {written : Bool × Logger}
    (isWritten : written = shouldWrite lastMessage frame.text msg.size l) {l' : Logger}
    (isNext : l' = if written.1 then
      loggingWrite (.message msg.level (stringAt written.2.mem (loggingMaxLine + 1) frame.text)) written.2
      else written.2) :
    l'.level = l.level ∧ l'.quiet = l.quiet ∧ Mirrors lastMessage l' (r.feed loggingAggregateMessages msg.arrival) := by
  have test := compares_iff frame mirrors msg spells
  cases held : r.holds loggingAggregateMessages msg.arrival with
  | true =>
      rw [shouldWrite, if_pos (test.mpr held)] at isWritten
      rw [isWritten] at isNext
      obtain rfl : l' = { l with repetitions := l.repetitions + 1 } := isNext
      rw [Repetitions.feed_of_holds held]
      exact ⟨rfl, rfl, mirrors.spells, mirrors.short, mirrors.last, congrArg (· + 1) mirrors.count, mirrors.lines⟩
  | false =>
      have fails : ¬ (strncmp l.mem frame.text lastMessage msg.size = 0 ∧ l.repetitions < loggingAggregateMessages) :=
        fun compared => Bool.false_ne_true (held.symm.trans (test.mp compared))
      obtain ⟨copied, last, kept⟩ := copied_spells frame msg spells mirrors.last
      have line : stringAt (strncpy l.mem lastMessage frame.text loggingMaxLine).2 (loggingMaxLine + 1) frame.text =
          msg.text :=
        stringAt_eq msg.text kept (Nat.lt_of_le_of_lt (Nat.le_trans msg.text_length msg.size_le) (by decide))
      have count := mirrors.count
      have lines := mirrors.lines
      rw [shouldWrite, if_neg fails] at isWritten
      dsimp only at isWritten
      rw [Repetitions.feed_of_not held, ← count, ← lines]
      by_cases more : l.repetitions > 1
      · rw [if_pos more] at isWritten ⊢
        rw [isNext, isWritten]
        refine ⟨rfl, rfl, copied, Nat.le_trans msg.text_length msg.size_le, last, rfl, ?_⟩
        simp [loggingWrite, line, LogLine.notice, LogMessage.arrival]
      · rw [if_neg more] at isWritten ⊢
        rw [isNext, isWritten]
        refine ⟨rfl, rfl, copied, Nat.le_trans msg.text_length msg.size_le, last, rfl, ?_⟩
        simp [loggingWrite, line, LogLine.notice, LogMessage.arrival]

/-- A message that passes the filter is fed to the compressor. -/
theorem logging_mirrors (frame : Frame lastMessage) (mirrors : Mirrors lastMessage l r) (msg : LogMessage)
    (passes : ¬ msg.level < l.level) (loud : ¬ l.quiet ≠ 0) :
    ∃ l', logging lastMessage frame.text msg.level msg.format msg.args l = some l' ∧ l'.level = l.level ∧
      l'.quiet = l.quiet ∧ Mirrors lastMessage l' (r.feed loggingAggregateMessages msg.arrival) := by
  obtain ⟨m, formatted, spells, kept⟩ := loggingFormat_spec msg frame.text l.mem
  rw [logging, if_neg passes, if_neg loud, formatted, Option.map_some]
  exact ⟨_, rfl, written_mirrors frame (mirrors.formatted frame kept) msg spells rfl rfl⟩

end Step

end BubackOS.Logging
