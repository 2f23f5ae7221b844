import BubackOS.Hal.Serial
import BubackOS.Libutils.LogRuns

/-!
# The log on the wire

`core/src/logging/services.c` and `native_logging`.  A line gets the name of its level and a
newline, is cut to 255 characters and goes to the serial port.  A text is read up to its NUL.
-/

namespace BubackOS.LogOutput

open Library Libc Logging

variable {status : Nat → UInt8} {polls lastMessage : Nat}

theorem nul_not_mem_takeWhile (text : List UInt8) : 0 ∉ text.takeWhile (· ≠ 0) := by
  intro member
  have nonzero := List.mem_takeWhile_imp member
  exact of_decide_eq_true nonzero rfl

/-- A pointer to a text; it is not null. -/
def stringArg (text : List UInt8) : VarArg where
  word := 1
  text := text.takeWhile (· ≠ 0)
  terminated := nul_not_mem_takeWhile text

/-- `native_logging`. -/
def nativeLogging (status : Nat → UInt8) (polls : Nat) (m : Memory) (msg size : Nat) :
    SerialPort → Option SerialPort := serialWrite status polls m msg size

/-- `LOGGING_LEVEL_NAMES[level]`. -/
def levelText (level : Int) : List UInt8 := loggingLevelNames.getD level.toNat []

/-- The format of a line. -/
def lineFormat : List UInt8 := literal "%s: %s\n"

/-- The arguments of a line. -/
def lineArgs (line : LogLine) : List VarArg := [stringArg (levelText line.level), stringArg line.text]

/-- `logging_write`, with what the buffer `output` holds before. -/
def loggingWrite (status : Nat → UInt8) (polls : Nat) (output : Memory) (line : LogLine) (port : SerialPort) :
    Option SerialPort :=
  (vsnprintf (lineFormat.length + 1) output (loggingMaxLine + 1) (cstring lineFormat) (lineArgs line)).bind
    fun formatted =>
      let size := (min formatted.1 (loggingMaxLine : Int)).toNat
      nativeLogging status polls (formatted.2.buffer.storeByte size 0) 0 size port

/-- The calls of `logging_write`, one after the other. -/
def writeLines (status : Nat → UInt8) (polls : Nat) : List (Memory × LogLine) → SerialPort → Option SerialPort
  | [], port => some port
  | call :: rest, port => (loggingWrite status polls call.1 call.2 port).bind (writeLines status polls rest)

/-- The level is an index of `LOGGING_LEVEL_NAMES`. -/
def Named (level : Int) : Prop := 0 ≤ level ∧ level < 6

instance (level : Int) : Decidable (Named level) := inferInstanceAs (Decidable (_ ∧ _))

/-- The line in full. -/
def fullLine (line : LogLine) : List UInt8 :=
  levelText line.level ++ literal ": " ++ line.text.takeWhile (· ≠ 0) ++ literal "\n"

/-! ## One line -/

theorem levelName {level : Int} (named : Named level) :
    (stringArg (levelText level)).text = levelText level ∧ (levelText level).length = 5 := by
  obtain ⟨low, high⟩ := named
  obtain ⟨index, rfl⟩ := Int.eq_ofNat_of_zero_le low
  have bound : index < 6 := Int.ofNat_lt.mp high
  clear low high
  decide +revert

theorem render_line (line : LogLine) (named : Named line.level) :
    render lineFormat (lineArgs line) = fullLine line := by
  have name := (levelName named).1
  change (stringArg (levelText line.level)).text ++
    (literal ": " ++ ((stringArg line.text).text ++ literal "\n")) = _
  rw [name]
  unfold fullLine
  simp only [List.append_assoc]
  rfl

/-- The name and the colon fit, and the text is the last thing that is converted. -/
theorem truncatesCleanly_line (line : LogLine) (named : Named line.level) :
    truncatesCleanly lineFormat 256 (lineArgs line) = true := by
  obtain ⟨name, length⟩ := levelName named
  change (256 ≤ (stringArg (levelText line.level)).text.length ||
    truncatesCleanly (literal ": %s\n") (256 - (stringArg (levelText line.level)).text.length)
      [stringArg line.text]) = true
  rw [name, length, Bool.or_eq_true]
  right
  change (249 ≤ (stringArg line.text).text.length ||
    truncatesCleanly (literal "\n") (249 - (stringArg line.text).text.length) []) = true
  by_cases long : 249 ≤ (stringArg line.text).text.length
  · rw [decide_eq_true long, Bool.true_or]
  · have room : 249 - (stringArg line.text).text.length ≠ 0 := Nat.sub_ne_zero_of_lt (Nat.lt_of_not_le long)
    rw [Bool.or_eq_true]
    right
    change (249 - (stringArg line.text).text.length ≠ 0 && _) = true
    rw [decide_eq_true room]
    rfl

/-- A line arrives on the wire, up to its first 255 characters, whatever the buffer held. -/
theorem loggingWrite_sends (responsive : Responsive status polls) (output : Memory) {line : LogLine}
    (named : Named line.level) {port : SerialPort} (paced : port.Paced status) :
    ∃ port' ∈ loggingWrite status polls output line port,
      port'.Paced status ∧ port'.bytes = port.bytes ++ (fullLine line).take 255 := by
  have spells : Spells (cstring lineFormat) 0 lineFormat := spells_cstring (by decide)
  obtain ⟨s, returned, rest, progress, -⟩ := formatLoop_clean spells output (by decide : 256 < 2 ^ 64)
    (lineArgs line) (truncatesCleanly_line line named) (Nat.lt_succ_self _)
  rw [render_line line named] at progress
  obtain ⟨done, isDone⟩ : ∃ done, done = terminate 256 s := ⟨_, rfl⟩
  obtain ⟨cursor, short, -, stored, terminated, -⟩ := progress.terminate (by decide) (by decide) isDone
  have size : (min (asInt done.p) (loggingMaxLine : Int)).toNat = ((fullLine line).take 255).length := by
    have small : asInt done.p = done.p := asInt_eq_iff.mpr (Nat.lt_of_le_of_lt short (by decide))
    have least : min (done.p : Int) (loggingMaxLine : Int) = done.p := min_eq_left (Int.ofNat_le.mpr short)
    rw [small, least, Int.toNat_natCast]
    exact cursor
  have kept : ∀ i c, ((fullLine line).take 255)[i]? = some c →
      done.buffer.storeByte ((fullLine line).take 255).length 0 (0 + i) = c := by
    intro i c found
    have inside : i < ((fullLine line).take 255).length := (List.getElem?_eq_some_iff.mp found).1
    rw [Nat.zero_add, Memory.storeByte, if_neg (Nat.ne_of_lt inside)]
    exact stored i c found
  obtain ⟨port', sent, result⟩ := serialWrite_sends responsive _ kept paced
  refine ⟨port', ?_, result⟩
  unfold loggingWrite
  rw [vsnprintf_eq, show loggingMaxLine + 1 = 256 from rfl, Option.mem_def.mp returned, Option.map_some,
    Option.bind_some, ← isDone]
  change port' ∈ serialWrite status polls (done.buffer.storeByte (min (asInt done.p) (loggingMaxLine : Int)).toNat 0) 0
    (min (asInt done.p) (loggingMaxLine : Int)).toNat port
  rw [size]
  exact sent

/-! ## Runs -/

theorem writeLines_sends (responsive : Responsive status polls) (calls : List (Memory × LogLine)) :
    ∀ {port : SerialPort}, (∀ call ∈ calls, Named call.2.level) → port.Paced status →
      ∃ port' ∈ writeLines status polls calls port, port'.Paced status ∧
        port'.bytes = port.bytes ++ calls.flatMap fun call => (fullLine call.2).take 255 := by
  induction calls with
  | nil => exact fun _ paced => ⟨_, rfl, paced, (List.append_nil _).symm⟩
  | cons call rest ih =>
      intro port named paced
      obtain ⟨next, first, pacedNext, bytesNext⟩ :=
        loggingWrite_sends responsive call.1 (named call List.mem_cons_self) paced
      obtain ⟨port', later, paced', bytes'⟩ :=
        ih (fun other member => named other (List.mem_cons_of_mem call member)) pacedNext
      refine ⟨port', ?_, paced', ?_⟩
      · rw [writeLines, Option.mem_def.mp first]
        exact later
      · rw [bytes', bytesNext, List.flatMap_cons, List.append_assoc]

theorem shouldWrite_lines (lastMessage text textSize : Nat) (l : Logger) {line : LogLine}
    (member : line ∈ (shouldWrite lastMessage text textSize l).2.lines) :
    line ∈ l.lines ∨ ∃ count, line = .report count := by
  unfold shouldWrite at member
  split at member
  · exact .inl member
  · dsimp only at member
    split at member
    · rcases List.mem_append.mp member with before | last
      · exact .inl before
      · exact .inr ⟨_, List.mem_singleton.mp last⟩
    · exact .inl member

/-- The level of a report. -/
theorem named_logInfo : Named logInfo := by decide

/-- Every new line is a report, or has the level of the message logged. -/
theorem run_named {op : LogOp lastMessage} {l l' : Logger} (returned : op.run l = some l')
    (logged : ∀ msg ∈ op.logged l, Named msg.level) (named : ∀ line ∈ l.lines, Named line.level) :
    ∀ line ∈ l'.lines, Named line.level := by
  cases op with
  | setLevel level =>
      obtain rfl := Option.some.inj returned
      exact named
  | setQuiet enable =>
      obtain rfl := Option.some.inj returned
      exact named
  | message msg frame =>
      rw [LogOp.run, logging] at returned
      rw [LogOp.logged] at logged
      split at returned
      · obtain rfl := Option.some.inj returned
        exact named
      · rename_i passes
        split at returned
        · obtain rfl := Option.some.inj returned
          exact named
        · rename_i loud
          rw [if_neg (not_or.mpr ⟨passes, loud⟩)] at logged
          obtain ⟨formatted, -, rfl⟩ := Option.map_eq_some_iff.mp returned
          have earlier : ∀ line ∈ (shouldWrite lastMessage frame.text formatted.1
              { l with mem := formatted.2 }).2.lines, Named line.level := by
            intro line member
            rcases shouldWrite_lines _ _ _ _ member with before | ⟨count, rfl⟩
            · exact named line before
            · exact named_logInfo
          dsimp only
          split
          · intro line member
            rcases List.mem_append.mp member with before | last
            · exact earlier line before
            · rw [List.mem_singleton.mp last]
              exact logged msg (List.mem_singleton_self msg)
          · exact earlier

theorem runLog_named (ops : List (LogOp lastMessage)) : ∀ {l l' : Logger}, runLog ops l = some l' →
    (∀ msg ∈ loggedMessages ops l, Named msg.level) → (∀ line ∈ l.lines, Named line.level) →
      ∀ line ∈ l'.lines, Named line.level := by
  induction ops with
  | nil =>
      intro l l' returned _ named
      obtain rfl := Option.some.inj returned
      exact named
  | cons op rest ih =>
      intro l l' returned logged named
      rw [runLog] at returned
      obtain ⟨l₁, first, later⟩ := Option.bind_eq_some_iff.mp returned
      rw [loggedMessages, first, Option.elim_some] at logged
      exact ih later (fun msg member => logged msg (List.mem_append_right _ member))
        (run_named first (fun msg member => logged msg (List.mem_append_left _ member)) named)

/-- For every sequence of log calls, every device that becomes ready again and whatever the stack held: the lines
arrive on the wire in their order, each with its level and cut to 255 characters, so that a text of at most 247
characters arrives whole with its newline; and each byte goes out after a status read of its own that found the
transmitter empty. -/
theorem log_reaches_wire {l : Logger} (fresh : Fresh lastMessage l) (ops : List (LogOp lastMessage))
    (named : ∀ msg ∈ loggedMessages ops l, Named msg.level) (responsive : Responsive status polls)
    {port : SerialPort} (paced : port.Paced status) :
    ∃ l', runLog ops l = some l' ∧
      (∀ calls : List (Memory × LogLine), calls.map Prod.snd = l'.lines →
        ∃ port', writeLines status polls calls port = some port' ∧ port'.Paced status ∧
          port'.bytes = port.bytes ++ l'.lines.flatMap fun line => (fullLine line).take 255) ∧
      ∀ line ∈ l'.lines, (line.text.takeWhile (· ≠ 0)).length ≤ 247 → (fullLine line).take 255 = fullLine line := by
  obtain ⟨l', returned, -⟩ := runLog_mirrors ops fresh.mirrors
  have namedLines := runLog_named ops returned named (by
    rw [fresh.lines]
    exact fun line member => absurd member List.not_mem_nil)
  refine ⟨l', returned, fun calls lines => ?_, fun line member short => List.take_of_length_le ?_⟩
  · obtain ⟨port', sent, paced', bytes'⟩ := writeLines_sends responsive calls (fun call member =>
      namedLines call.2 (lines ▸ List.mem_map_of_mem member)) paced
    refine ⟨port', sent, paced', ?_⟩
    rw [bytes', ← lines, List.flatMap_map]
  · have name := (levelName (namedLines line member)).2
    unfold fullLine
    simp only [List.length_append, name]
    change 5 + 2 + _ + 1 ≤ 255
    omega

theorem idle_responsive : Responsive (fun _ => 0x20) 1 := by
  have empty : isTransmitEmpty 0x20 ≠ 0 := by decide
  exact fun _ => ⟨0, Nat.one_pos, empty⟩

theorem log_reaches_wire_sample :
    ∃ l', runLog [.message longMessage sampleFrame] .initial = some l' ∧
      ∀ calls, calls.map Prod.snd = l'.lines →
        (writeLines (fun _ => 0x20) 1 calls ⟨0, []⟩).map (·.bytes) =
          some (l'.lines.flatMap fun line => (fullLine line).take 255) := by
  have paced : SerialPort.Paced (fun _ => 0x20) ⟨0, []⟩ := ⟨.nil, nofun, nofun⟩
  obtain ⟨l', returned, wire, -⟩ := log_reaches_wire (initial_fresh 0x1000) [.message longMessage sampleFrame]
    (by decide +kernel) idle_responsive paced
  refine ⟨l', returned, fun calls lines => ?_⟩
  obtain ⟨port, sent, -, bytes⟩ := wire calls lines
  rw [sent]
  exact congrArg some bytes

end BubackOS.LogOutput
