import BubackOS.Core.Task
import BubackOS.Libutils.Logging

/-!
# The tables behind a system call

`handle_syscall` checks the number before it indexes `syscall_vector`.  The level of
`SYSCALL_LOGGING` is the first argument of the user, cut to an `int`, and is an index of
`LOGGING_LEVEL_NAMES` when the message is written: nothing but the configured level, which is
a lower bound, and the suppression of repetitions stands between them.
-/

namespace BubackOS.Logging

open Library Libc

/-! ## The functions -/

/-- An argument that is no string. -/
def wordArg (word : UInt64) : VarArg := { word := word, text := [], terminated := nul_not_mem_nil }

/-- `syscall_handler_logging`, for the current task with this name. -/
def syscallHandlerLogging (lastMessage text : Nat) (name : VarArg) (level : Int) (msg : VarArg) (l : Logger) :
    Option Logger :=
  logging lastMessage text level (literal "[%s]: %s") [name, msg] l

/-- What a user task passes: the number and five arguments, and the string the second one points to. -/
structure UserCall where
  number : UInt64
  arg1 : UInt64
  arg2 : UInt64
  arg3 : UInt64
  arg4 : UInt64
  arg5 : UInt64
  message : List UInt8
  terminated : 0 ∉ message

namespace UserCall

variable (call : UserCall)

/-- The first argument as the parameter `int level`. -/
def level : Int := asInt call.arg1.toNat

/-- The second argument as the parameter `char* msg`. -/
def msg : VarArg := { word := call.arg2, text := call.message, terminated := call.terminated }

end UserCall

/-- What `handle_syscall` does to the log, and the indices of `syscall_vector` it reads.  The buffer of its own
messages is at `text`, that of the handler's at `inner`. -/
def handleSyscallLog (lastMessage text inner : Nat) (name : VarArg) (call : UserCall) (l : Logger) :
    Option (List Nat × Logger) :=
  (logging lastMessage text logTrace
      (literal "Syscall %x called from %s: arg1=0x%x arg2=0x%x arg3=0x%x arg4=0x%x arg5=0x%x")
      [wordArg call.number, name, wordArg call.arg1, wordArg call.arg2, wordArg call.arg3, wordArg call.arg4,
        wordArg call.arg5] l).bind fun traced =>
    if call.number.toNat = 0 ∨ call.number.toNat ≥ syscallMaxNumber then
      (logging lastMessage text logError (literal "Invalid syscall %d from task %s. Number out of range.")
        [wordArg call.number, name] traced).map fun l => ([], l)
    else
      match syscallVector call.number.toNat with
      | none =>
          (logging lastMessage text logError (literal "Invalid syscall %d from task %s. Unregistered handler.")
            [wordArg call.number, name] traced).map fun l => ([call.number.toNat], l)
      | some .logging =>
          (syscallHandlerLogging lastMessage inner name call.level call.msg traced).map fun l => ([call.number.toNat], l)
      | some .taskExit => some ([call.number.toNat], traced)

/-! ## The indices of one call of `logging` -/

/-- `LOGGING_LEVEL_NAMES[level]` is one of the names. -/
def InTable (level : Int) : Prop := 0 ≤ level ∧ level < loggingLevelNames.length

theorem inTable_trace : InTable logTrace := ⟨by decide, by decide⟩

theorem inTable_info : InTable logInfo := ⟨by decide, by decide⟩

theorem inTable_error : InTable logError := ⟨by decide, by decide⟩

/-- `should_write` refuses the text. -/
def Suppresses (lastMessage text : Nat) (format : List UInt8) (args : List VarArg) (l : Logger) : Prop :=
  ∃ formatted ∈ loggingFormat text format args l.mem,
    (shouldWrite lastMessage text formatted.1 { l with mem := formatted.2 }).1 = false

section Calls

variable {lastMessage text : Nat} {level : Int} {format : List UInt8} {args : List VarArg} {l : Logger}

theorem loggingFormat_returns (text : Nat) (format : List UInt8) (args : List VarArg) (m : Memory) :
    ∃ formatted, loggingFormat text format args m = some formatted := by
  obtain ⟨result, returned⟩ := vsnprintf_returns format (fun i => m (text + i)) loggingMaxLine args
  rw [loggingFormat, returned]
  exact ⟨_, rfl⟩

/-- `should_write` writes at most a report. -/
theorem shouldWrite_lines (lastMessage text textSize : Nat) (l : Logger) : ∃ new,
    (shouldWrite lastMessage text textSize l).2.lines = l.lines ++ new ∧ (∀ line ∈ new, InTable line.level) ∧
      (shouldWrite lastMessage text textSize l).2.level = l.level ∧
      (shouldWrite lastMessage text textSize l).2.quiet = l.quiet := by
  unfold shouldWrite
  split
  · exact ⟨[], (List.append_nil _).symm, fun _ none => absurd none List.not_mem_nil, rfl, rfl⟩
  · dsimp only
    split
    · refine ⟨[.report (l.repetitions - 1)], rfl, fun line member => ?_, rfl, rfl⟩
      rw [List.mem_singleton.mp member]
      exact inTable_info
    · exact ⟨[], (List.append_nil _).symm, fun _ none => absurd none List.not_mem_nil, rfl, rfl⟩

theorem shouldWrite_mem (lastMessage text textSize : Nat) (l : Logger) :
    (shouldWrite lastMessage text textSize l).2.mem =
      if (shouldWrite lastMessage text textSize l).1 then (strncpy l.mem lastMessage text loggingMaxLine).2
      else l.mem := by
  unfold shouldWrite
  split
  · rfl
  · dsimp only
    split
    · rfl
    · rfl

theorem strncmp_of_refused {lastMessage text textSize : Nat} {l : Logger}
    (refused : (shouldWrite lastMessage text textSize l).1 = false) : strncmp l.mem text lastMessage textSize = 0 := by
  unfold shouldWrite at refused
  split at refused
  · rename_i compared
    exact compared.1
  · cases refused

/-- Every call returns, and the lines it writes have names exactly if its level has one, or it writes none of
its own. -/
theorem logging_indices (lastMessage text : Nat) (level : Int) (format : List UInt8) (args : List VarArg) (l : Logger) :
    ∃ l' new, logging lastMessage text level format args l = some l' ∧ l'.level = l.level ∧ l'.quiet = l.quiet ∧
      l'.lines = l.lines ++ new ∧
      ((∀ line ∈ new, InTable line.level) ↔
        InTable level ∨ level < l.level ∨ l.quiet ≠ 0 ∨ Suppresses lastMessage text format args l) := by
  have nothing : ∀ line ∈ ([] : List LogLine), InTable line.level := fun _ none => absurd none List.not_mem_nil
  by_cases low : level < l.level
  · exact ⟨l, [], if_pos low, rfl, rfl, (List.append_nil _).symm, fun _ => Or.inr (Or.inl low), fun _ => nothing⟩
  · by_cases quiet : l.quiet ≠ 0
    · refine ⟨l, [], ?_, rfl, rfl, (List.append_nil _).symm, fun _ => Or.inr (Or.inr (Or.inl quiet)), fun _ => nothing⟩
      rw [logging, if_neg low, if_pos quiet]
    · obtain ⟨formatted, returned⟩ := loggingFormat_returns text format args l.mem
      obtain ⟨new, lines, named, sameLevel, sameQuiet⟩ : ∃ new, _ ∧ _ :=
        shouldWrite_lines lastMessage text formatted.1 { l with mem := formatted.2 }
      rw [logging, if_neg low, if_neg quiet, returned, Option.map_some]
      dsimp only
      cases verdict : (shouldWrite lastMessage text formatted.1 { l with mem := formatted.2 }).1 with
      | false =>
          have suppressed : Suppresses lastMessage text format args l := ⟨formatted, returned, verdict⟩
          rw [if_neg Bool.false_ne_true]
          exact ⟨_, new, rfl, sameLevel, sameQuiet, lines, fun _ => Or.inr (Or.inr (Or.inr suppressed)), fun _ => named⟩
      | true =>
          have shown : ¬ Suppresses lastMessage text format args l := by
            rintro ⟨formatted', returned', refused⟩
            obtain rfl : formatted = formatted' := Option.some.inj (returned.symm.trans returned')
            exact Bool.false_ne_true (refused.symm.trans verdict)
          rw [if_pos rfl]
          generalize stringAt (shouldWrite lastMessage text formatted.1 { l with mem := formatted.2 }).2.mem
            (loggingMaxLine + 1) text = written
          refine ⟨_, new ++ [.message level written], rfl, sameLevel, sameQuiet, ?_, fun all => Or.inl ?_,
            fun cases line member => ?_⟩
          · rw [loggingWrite, lines, List.append_assoc]
          · exact all _ (List.mem_append_right _ List.mem_cons_self)
          · rcases List.mem_append.mp member with earlier | last
            · exact named line earlier
            · rw [List.mem_singleton.mp last]
              rcases cases with inTable | filtered | silent | suppressed
              · exact inTable
              · exact absurd filtered low
              · exact absurd silent quiet
              · exact absurd suppressed shown

/-! ## The first characters -/

/-- Whatever the arguments are, a literal first character is in the buffer, and `last_message` is left alone. -/
theorem loggingFormat_first {x : UInt8} {rest : List UInt8} (isFormat : format = x :: rest) (isLiteral : x ≠ byte '%')
    (present : x ≠ 0) (text : Nat) (args : List VarArg) (m : Memory) :
    ∃ size m', loggingFormat text format args m = some (size, m') ∧ size ≠ 0 ∧ m' text = x ∧
      ∀ a, a < text ∨ text + 512 ≤ a → m' a = m a := by
  obtain ⟨result, returned⟩ := vsnprintf_returns format (fun i => m (text + i)) loggingMaxLine args
  obtain ⟨isLength, near, -, kept⟩ := vsnprintf_kept (by decide) returned (by decide)
  have first : cstring format 0 = x := by rw [isFormat]; rfl
  obtain ⟨positive, byte⟩ := vsnprintf_first (by decide) (by decide) (by rwa [first]) (by rwa [first]) returned
  have isSize : min result.1 (loggingMaxLine : Int) = (min result.2.p loggingMaxLine : Nat) := by
    rw [isLength]
    exact (Nat.cast_min _ _).symm
  unfold overshoot loggingMaxLine at near
  have some : min result.2.p loggingMaxLine ≠ 0 := by
    unfold loggingMaxLine
    omega
  obtain ⟨m', formatted, buffer, -, below⟩ := loggingFormat_eq returned isSize
  refine ⟨_, m', formatted, some, ?_, fun a outside => ?_⟩
  · have start := buffer 0 some.symm
    rw [Nat.add_zero] at start
    rw [start, byte, first]
  · rcases outside with before | behind
    · exact below a before
    · obtain ⟨i, rfl⟩ : ∃ i, a = text + i := ⟨a - text, by omega⟩
      rw [buffer i (by unfold loggingMaxLine; omega)]
      exact kept i (by unfold loggingMaxLine; omega) (by omega)

/-- The place of a buffer on the stack, with the part of the stack above it that `vsnprintf` may reach, is apart
from `last_message`. -/
structure Roomy (lastMessage text : Nat) : Prop where
  apart : text + 512 ≤ lastMessage ∨ lastMessage + 256 ≤ text
  memory : text + 256 ≤ 2 ^ 64
  static : lastMessage + 256 ≤ 2 ^ 64

section Marks

variable {x : UInt8} {rest : List UInt8} (roomy : Roomy lastMessage text) (isFormat : format = x :: rest)
  (isLiteral : x ≠ byte '%') (present : x ≠ 0)

include roomy isFormat isLiteral present

/-- A text with another first character than the last message is not suppressed. -/
theorem not_suppresses (differs : l.mem lastMessage ≠ x) : ¬ Suppresses lastMessage text format args l := by
  rintro ⟨formatted, returned, refused⟩
  obtain ⟨size, m, returned', some, first, kept⟩ := loggingFormat_first isFormat isLiteral present text args l.mem
  obtain rfl : (size, m) = formatted := Option.some.inj (returned'.symm.trans returned)
  have apart := roomy.apart
  have same : m text = m lastMessage := strncmp_first some (strncmp_of_refused refused)
  rw [first, kept lastMessage (by omega)] at same
  exact differs same.symm

/-- After a message that passed the filter, written or suppressed, `last_message` begins with its first
character. -/
theorem logging_marks (passes : ¬ level < l.level) (loud : ¬ l.quiet ≠ 0) {l' : Logger}
    (returned : logging lastMessage text level format args l = some l') : l'.mem lastMessage = x := by
  obtain ⟨size, m, formatted, some, first, kept⟩ := loggingFormat_first isFormat isLiteral present text args l.mem
  have apart := roomy.apart
  have memory := roomy.memory
  have static := roomy.static
  rw [logging, if_neg passes, if_neg loud, formatted, Option.map_some] at returned
  have memory' := shouldWrite_mem lastMessage text size { l with mem := m }
  rw [← Option.some.inj returned]
  dsimp only
  cases verdict : (shouldWrite lastMessage text size { l with mem := m }).1 with
  | false =>
      rw [verdict, if_neg Bool.false_ne_true] at memory'
      rw [if_neg Bool.false_ne_true, memory']
      exact (strncmp_first some (strncmp_of_refused verdict)).symm.trans first
  | true =>
      have nonzero : m text ≠ 0 := by rwa [first]
      rw [verdict, if_pos rfl] at memory'
      rw [if_pos rfl, loggingWrite, memory']
      rw [strncpy_first nonzero (by decide) (by unfold loggingMaxLine; omega) (by unfold loggingMaxLine; omega)
        (by unfold loggingMaxLine; omega), first]

end Marks

end Calls

/-! ## System calls -/

/-- The trace of a call. -/
theorem trace_indices (lastMessage text : Nat) (name : VarArg) (call : UserCall) (l : Logger) :
    ∃ traced new, logging lastMessage text logTrace
        (literal "Syscall %x called from %s: arg1=0x%x arg2=0x%x arg3=0x%x arg4=0x%x arg5=0x%x")
        [wordArg call.number, name, wordArg call.arg1, wordArg call.arg2, wordArg call.arg3, wordArg call.arg4,
          wordArg call.arg5] l = some traced ∧ traced.level = l.level ∧ traced.quiet = l.quiet ∧
      traced.lines = l.lines ++ new ∧ ∀ line ∈ new, InTable line.level := by
  obtain ⟨traced, new, returned, level, quiet, lines, named⟩ := logging_indices lastMessage text logTrace
    (literal "Syscall %x called from %s: arg1=0x%x arg2=0x%x arg3=0x%x arg4=0x%x arg5=0x%x")
    [wordArg call.number, name, wordArg call.arg1, wordArg call.arg2, wordArg call.arg3, wordArg call.arg4,
      wordArg call.arg5] l
  exact ⟨traced, new, returned, level, quiet, lines, named.mpr (Or.inl inTable_trace)⟩

/-- Every other number leads to messages of the kernel only. -/
theorem other_syscall_inRange (lastMessage text inner : Nat) (name : VarArg) {call : UserCall} (other : call.number ≠ 2)
    (l : Logger) :
    ∃ result new, handleSyscallLog lastMessage text inner name call l = some result ∧
      result.2.lines = l.lines ++ new ∧ (∀ index ∈ result.1, index < syscallMaxNumber) ∧
      ∀ line ∈ new, InTable line.level := by
  obtain ⟨traced, before, trace, -, -, lines, named⟩ := trace_indices lastMessage text name call l
  have refused : ∀ (format : List UInt8) {indices : List Nat}, (∀ index ∈ indices, index < syscallMaxNumber) →
      ∃ result new, (logging lastMessage text logError format [wordArg call.number, name] traced).map
          (fun l => (indices, l)) = some result ∧ result.2.lines = l.lines ++ new ∧
        (∀ index ∈ result.1, index < syscallMaxNumber) ∧ ∀ line ∈ new, InTable line.level := by
    intro format indices inRange
    obtain ⟨l', after, logged, -, -, lines', named'⟩ := logging_indices lastMessage text logError format
      [wordArg call.number, name] traced
    refine ⟨(indices, l'), before ++ after, by rw [logged]; rfl, by rw [lines', lines, List.append_assoc], inRange, ?_⟩
    exact List.forall_mem_append.mpr ⟨named, named'.mpr (Or.inl inTable_error)⟩
  rw [handleSyscallLog, trace, Option.bind_some]
  split
  · exact refused _ fun _ none => absurd none List.not_mem_nil
  · rename_i known
    have inRange : ∀ index ∈ [call.number.toNat], index < syscallMaxNumber := by
      rw [List.forall_mem_singleton]
      exact Nat.lt_of_not_le (not_or.mp known).2
    split
    · exact refused _ inRange
    · rename_i handler
      have isLogging : call.number.toNat = 2 := by
        unfold syscallVector at handler
        split at handler
        · cases handler
        · assumption
        · cases handler
      exact absurd (UInt64.toNat_inj.mp isLogging) other
    · exact ⟨_, before, rfl, lines, inRange, named⟩

section Syscalls

variable {lastMessage text inner : Nat} (outer : Roomy lastMessage text) (deeper : Roomy lastMessage inner)

include outer deeper

/-- The trace of a call is remembered, and the message of `syscall_handler_logging` begins otherwise: only where the
trace is filtered can the message be suppressed. -/
theorem suppresses_after_trace {trace : List UInt8} (isTrace : trace = byte 'S' :: trace.tail) (args : List VarArg)
    (name msg : VarArg) {l traced : Logger} (loud : ¬ l.quiet ≠ 0)
    (returned : logging lastMessage text logTrace trace args l = some traced) :
    Suppresses lastMessage inner (literal "[%s]: %s") [name, msg] traced ↔
      logTrace < l.level ∧ Suppresses lastMessage inner (literal "[%s]: %s") [name, msg] l := by
  by_cases filtered : logTrace < l.level
  · rw [logging, if_pos filtered] at returned
    rw [← Option.some.inj returned]
    exact (and_iff_right filtered).symm
  · have marked := logging_marks outer isTrace (by decide) (by decide) filtered loud returned
    have differs : traced.mem lastMessage ≠ byte '[' := by
      rw [marked]
      decide
    refine iff_of_false ?_ fun both => filtered both.1
    have isFormat : literal "[%s]: %s" = byte '[' :: literal "%s]: %s" := rfl
    exact not_suppresses deeper isFormat (by decide) (by decide) differs

/-- `SYSCALL_LOGGING` with a level of the user. -/
theorem logging_syscall_iff (name : VarArg) {call : UserCall} (isLogging : call.number = 2) (l : Logger) :
    ∃ result new, handleSyscallLog lastMessage text inner name call l = some result ∧
      result.2.lines = l.lines ++ new ∧ result.1 = [2] ∧
      ((∀ line ∈ new, InTable line.level) ↔
        InTable call.level ∨ call.level < l.level ∨ l.quiet ≠ 0 ∨
          logTrace < l.level ∧ Suppresses lastMessage inner (literal "[%s]: %s") [name, call.msg] l) := by
  obtain ⟨traced, before, trace, sameLevel, sameQuiet, lines, named⟩ := trace_indices lastMessage text name call l
  obtain ⟨l', after, logged, -, -, lines', named'⟩ := logging_indices lastMessage inner call.level
    (literal "[%s]: %s") [name, call.msg] traced
  refine ⟨([2], l'), before ++ after, ?_, by rw [lines', lines, List.append_assoc], rfl, ?_⟩
  · rw [handleSyscallLog, trace, Option.bind_some, isLogging]
    exact congrArg (Option.map fun l => ([2], l)) logged
  · rw [List.forall_mem_append, and_iff_right named, named', sameLevel, sameQuiet]
    by_cases loud : l.quiet ≠ 0
    · simp [loud]
    · rw [suppresses_after_trace outer deeper rfl _ name call.msg loud trace]

/-- For every number, all arguments and strings, and every state of the log: all indices are in range if and only
if the call is not `SYSCALL_LOGGING`, its level has a name, or the message is filtered by the configured level,
by `quiet`, or, where the trace of the call is filtered too, as a repetition. -/
theorem syscall_indices_iff (name : VarArg) (call : UserCall) (l : Logger) :
    ∃ result new, handleSyscallLog lastMessage text inner name call l = some result ∧
      result.2.lines = l.lines ++ new ∧
      ((∀ index ∈ result.1, index < syscallMaxNumber) ∧ (∀ line ∈ new, InTable line.level) ↔
        call.number ≠ 2 ∨ InTable call.level ∨ call.level < l.level ∨ l.quiet ≠ 0 ∨
          logTrace < l.level ∧ Suppresses lastMessage inner (literal "[%s]: %s") [name, call.msg] l) := by
  by_cases isLogging : call.number = 2
  · obtain ⟨result, new, returned, lines, index, named⟩ := logging_syscall_iff outer deeper name isLogging l
    refine ⟨result, new, returned, lines, ?_⟩
    have inRange : ∀ index ∈ result.1, index < syscallMaxNumber := by
      rw [index]
      decide
    rw [and_iff_right inRange, named, or_iff_right (not_not.mpr isLogging)]
  · obtain ⟨result, new, returned, lines, inRange⟩ :=
      other_syscall_inRange lastMessage text inner name isLogging l
    exact ⟨result, new, returned, lines, iff_of_true inRange (Or.inl isLogging)⟩

end Syscalls

/-- A call of `SYSCALL_LOGGING` for a message of one letter. -/
def loggingCall (level : UInt64) : UserCall where
  number := 2
  arg1 := level
  arg2 := 0x400000
  arg3 := 0
  arg4 := 0
  arg5 := 0
  message := literal "x"
  terminated := by decide

/-- `task_display_name` of a task without a name. -/
def unnamedTask : VarArg := { word := 0x8000, text := literal "(unamed task)", terminated := by decide }

theorem warning_inRange : ∃ result new, handleSyscallLog 0x1000 0x2000 0x3000 unnamedTask (loggingCall 3) .initial =
      some result ∧ result.2.lines = new ∧ ∀ line ∈ new, InTable line.level := by
  have outer : Roomy 0x1000 0x2000 := ⟨Or.inr (by decide), by decide, by decide⟩
  have deeper : Roomy 0x1000 0x3000 := ⟨Or.inr (by decide), by decide, by decide⟩
  obtain ⟨result, new, returned, lines, inRange⟩ := syscall_indices_iff outer deeper unnamedTask (loggingCall 3) .initial
  exact ⟨result, new, returned, lines, (inRange.mpr (Or.inr (Or.inl ⟨by decide, by decide⟩))).2⟩

/-- The level `6` is used as an index of six names. -/
theorem level_out_of_range :
    ((handleSyscallLog 0x1000 0x2000 0x3000 unnamedTask (loggingCall 6) .initial).map fun result =>
      result.2.lines.map LogLine.level) = some [0, 6] ∧ ¬ InTable 6 := by
  refine ⟨by decide +kernel, fun inTable => absurd inTable.2 (by decide)⟩

end BubackOS.Logging
