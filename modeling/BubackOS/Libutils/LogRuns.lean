import BubackOS.Libc.Conversion
import BubackOS.Libutils.Logging
import Mathlib.Data.List.TakeWhile

/-!
# Runs of the log

What the lines say about the messages, over any sequence of calls.  A text is compared with
`last_message` on its own length only, so that the beginning of the last message passes for a
repetition of it, and before the first message so does the empty text.  The counting is
right as long as there is no empty text.
-/

namespace BubackOS.Logging

open Library Libc

/-- A call that changes the log; a message comes with the place of its buffer. -/
inductive LogOp (lastMessage : Nat) where
  | message (msg : LogMessage) (frame : Frame lastMessage)
  | setLevel (level : Int)
  | setQuiet (enable : Int)

section Runs

variable {lastMessage : Nat} {l : Logger} {r : Repetitions (List UInt8)}

def LogOp.run (l : Logger) : LogOp lastMessage → Option Logger
  | message msg frame => logging lastMessage frame.text msg.level msg.format msg.args l
  | setLevel level => some (logSetLevel level l)
  | setQuiet enable => some (logSetQuiet enable l)

def runLog : List (LogOp lastMessage) → Logger → Option Logger
  | [], l => some l
  | op :: rest, l => (op.run l).bind (runLog rest)

/-- The message, if it passes the filter. -/
def LogOp.logged (l : Logger) : LogOp lastMessage → List LogMessage
  | message msg _ => if msg.level < l.level ∨ l.quiet ≠ 0 then [] else [msg]
  | _ => []

/-- The messages of a run that pass the filter. -/
def loggedMessages : List (LogOp lastMessage) → Logger → List LogMessage
  | [], _ => []
  | op :: rest, l => op.logged l ++ (op.run l).elim [] (loggedMessages rest)

/-- The static variables have their first values. -/
structure Fresh (lastMessage : Nat) (l : Logger) : Prop where
  repetitions : l.repetitions = 0
  blank : ∀ i < 256, l.mem (lastMessage + i) = 0
  lines : l.lines = []

theorem Fresh.mirrors (fresh : Fresh lastMessage l) : Mirrors lastMessage l (.start []) :=
  ⟨fresh.blank 0 (by decide), Nat.zero_le _, fresh.blank 255 (by decide), fresh.repetitions, by rw [fresh.lines]; rfl⟩

/-- The compressor after some messages. -/
def feedMessages (messages : List LogMessage) (r : Repetitions (List UInt8)) : Repetitions (List UInt8) :=
  r.feedAll loggingAggregateMessages (messages.map LogMessage.arrival)

theorem LogOp.run_mirrors (op : LogOp lastMessage) (mirrors : Mirrors lastMessage l r) :
    ∃ l', op.run l = some l' ∧ Mirrors lastMessage l' (feedMessages (op.logged l) r) := by
  cases op with
  | message msg frame =>
      by_cases filtered : msg.level < l.level ∨ l.quiet ≠ 0
      · refine ⟨l, ?_, ?_⟩
        · rw [run, logging]
          rcases filtered with low | quiet
          · rw [if_pos low]
          · rw [if_pos quiet, ite_self]
        · rw [logged, if_pos filtered]
          exact mirrors
      · obtain ⟨passes, loud⟩ := not_or.mp filtered
        obtain ⟨l', returned, -, -, next⟩ := logging_mirrors frame mirrors msg passes loud
        refine ⟨l', returned, ?_⟩
        rw [logged, if_neg filtered]
        exact next
  | setLevel level => exact ⟨_, rfl, mirrors.spells, mirrors.short, mirrors.last, mirrors.count, mirrors.lines⟩
  | setQuiet enable => exact ⟨_, rfl, mirrors.spells, mirrors.short, mirrors.last, mirrors.count, mirrors.lines⟩

theorem feedMessages_append (first second : List LogMessage) (r : Repetitions (List UInt8)) :
    feedMessages (first ++ second) r = feedMessages second (feedMessages first r) := by
  unfold feedMessages
  rw [List.map_append, Repetitions.feedAll_append]

/-- Every run returns, and the log mirrors the compressor that was fed the logged messages. -/
theorem runLog_mirrors (ops : List (LogOp lastMessage)) : ∀ {l : Logger} {r : Repetitions (List UInt8)},
    Mirrors lastMessage l r →
      ∃ l', runLog ops l = some l' ∧ Mirrors lastMessage l' (feedMessages (loggedMessages ops l) r) := by
  induction ops with
  | nil => exact fun mirrors => ⟨_, rfl, mirrors⟩
  | cons op rest ih =>
      intro l r mirrors
      obtain ⟨l₁, first, next⟩ := op.run_mirrors mirrors
      obtain ⟨l', returned, final⟩ := ih next
      rw [runLog, loggedMessages, first, Option.bind_some, Option.elim_some, feedMessages_append]
      exact ⟨l', returned, final⟩

theorem runLog_append (first second : List (LogOp lastMessage)) : ∀ {l l₁ : Logger}, runLog first l = some l₁ →
    runLog (first ++ second) l = runLog second l₁ ∧
      loggedMessages (first ++ second) l = loggedMessages first l ++ loggedMessages second l₁ := by
  induction first with
  | nil =>
      intro l l₁ returned
      obtain rfl : l = l₁ := Option.some.inj returned
      exact ⟨rfl, rfl⟩
  | cons op rest ih =>
      intro l l₁ returned
      rw [runLog] at returned
      obtain ⟨l', first, later⟩ := Option.bind_eq_some_iff.mp returned
      obtain ⟨runs, messages⟩ := ih later
      rw [List.cons_append, runLog, loggedMessages, loggedMessages, first, Option.bind_some, Option.elim_some,
        Option.elim_some, runs, messages, List.append_assoc]
      exact ⟨rfl, rfl⟩

/-! ## What the lines restore -/

/-- The last message written. -/
def Logger.lastWritten (l : Logger) : Option (List UInt8) := (Repetitions.decode (l.lines.map LogLine.notice)).2

/-- The words of a report around its number. -/
def reportHead : List UInt8 := literal ">> last message repeat more "

def reportTail : List UInt8 := literal " times"

/-- The number in a text that reads as a report. -/
def reportCount (text : List UInt8) : Option Nat :=
  let digits := (text.drop reportHead.length).take (text.length - reportHead.length - reportTail.length)
  if text = reportHead ++ digits ++ reportTail ∧ digits ≠ [] ∧ digits.all (digitValue · < 10) then
    some (readNumeral 10 digits)
  else none

/-- What a reader of the output takes a line for: the text is all there is to see. -/
def LogLine.reading (line : LogLine) : Notice (List UInt8) :=
  match reportCount line.text with
  | some count => .again count
  | none => .item line.text

/-- The lines with every report replaced by copies of the message before it, and the pending copies. -/
def Logger.restored (l : Logger) : List (List UInt8) :=
  (Repetitions.decode (l.lines.map LogLine.reading)).1 ++
    Repetitions.copies (Repetitions.decode (l.lines.map LogLine.reading)).2 (l.repetitions - 1)

/-- A message that is not the one written last is not taken for it: it is no beginning of it, and not empty as
long as nothing was written; or the limit of repetitions is reached. -/
def LogMessage.Distinguished (l : Logger) (msg : LogMessage) : Prop :=
  loggingAggregateMessages ≤ l.repetitions ∨
    match l.lastWritten with
    | some last => msg.text = last.take msg.size → msg.text = last
    | none => msg.text ≠ []

instance (l : Logger) (msg : LogMessage) : Decidable (msg.Distinguished l) := by
  unfold LogMessage.Distinguished
  cases l.lastWritten <;> infer_instance

/-- Every message of the run that passes the filter, in the state in which it is logged. -/
def AllDistinguished : List (LogOp lastMessage) → Logger → Prop
  | [], _ => True
  | op :: rest, l => (∀ msg ∈ op.logged l, msg.Distinguished l) ∧ ∀ l' ∈ op.run l, AllDistinguished rest l'

instance decidableAllDistinguished :
    ∀ (ops : List (LogOp lastMessage)) (l : Logger), Decidable (AllDistinguished ops l)
  | [], _ => .isTrue trivial
  | op :: rest, l =>
      have := decidableAllDistinguished rest
      inferInstanceAs (Decidable ((∀ msg ∈ op.logged l, msg.Distinguished l) ∧ ∀ l' ∈ op.run l, AllDistinguished rest l'))

theorem report_text {count : Nat} (small : count < 2 ^ 31) :
    (LogLine.report count).text = reportHead ++ numeral 10 count ++ reportTail := by
  have number : asInt (UInt64.ofNat count).toNat = count := by
    rw [UInt64.toNat_ofNat_of_lt' (Nat.lt_trans small (by decide))]
    exact asInt_eq_iff.mpr small
  have converted : (Specifier.ofByte (byte 'd')).text
      { word := UInt64.ofNat count, text := [], terminated := nul_not_mem_nil } = numeral 10 count := by
    change (if asInt (UInt64.ofNat count).toNat < 0 then _ else numeral 10 (asInt (UInt64.ofNat count).toNat).natAbs) = _
    rw [number, if_neg (Int.not_lt.mpr (Int.natCast_nonneg count)), Int.natAbs_natCast]
  rw [List.append_assoc]
  refine (literal_append (by decide : byte '%' ∉ reportHead) (literal "%d times") _).1.trans ?_
  rw [← converted]
  rfl

/-- A report reads as itself. -/
theorem reportCount_report {count : Nat} (small : count < 2 ^ 31) :
    reportCount (LogLine.report count).text = some count := by
  have digits : ((LogLine.report count).text.drop reportHead.length).take
      ((LogLine.report count).text.length - reportHead.length - reportTail.length) = numeral 10 count := by
    rw [report_text small, List.append_assoc, List.drop_left, List.length_append, List.length_append,
      Nat.add_sub_cancel_left, Nat.add_sub_cancel, List.take_left]
  have decimal : (numeral 10 count).all (digitValue · < 10) := by
    refine List.all_eq_true.mpr fun c member => decide_eq_true ?_
    obtain ⟨digit, inside, rfl⟩ := List.mem_map.mp member
    have below : digit < 10 := by
      split at inside
      · rw [List.mem_singleton.mp inside]
        decide
      · exact Nat.digits_lt_base (by decide) (List.mem_reverse.mp inside)
    rw [digitValue_digitByte (Nat.lt_trans below (by decide))]
    exact below
  have nonempty : numeral 10 count ≠ [] := by
    intro empty
    have length := numeral_length (by decide : 1 < 10) count
    rw [empty] at length
    cases length
  unfold reportCount
  rw [digits]
  dsimp only
  rw [if_pos ⟨report_text small, nonempty, decimal⟩, readNumeral_numeral (by decide) (by decide)]

/-- Nothing restored reads as a report. -/
theorem reportCount_restored {text : List UInt8} (member : text ∈ l.restored) : reportCount text = none := by
  obtain ⟨items, last⟩ := Repetitions.mem_decode (l.lines.map LogLine.reading)
  have shown : .item text ∈ l.lines.map LogLine.reading := by
    rcases List.mem_append.mp member with written | pending
    · exact items text written
    · exact last text (Repetitions.mem_copies pending)
  obtain ⟨line, -, isItem⟩ := List.mem_map.mp shown
  unfold LogLine.reading at isItem
  split at isItem
  · cases isItem
  · rename_i none
    rw [← Notice.item.inj isItem]
    exact none

/-- As long as no message reads as a report, the lines read as what they are. -/
theorem reading_eq_notice {lines : List LogLine}
    (counts : ∀ count, .again count ∈ lines.map LogLine.notice → count < loggingAggregateMessages)
    (items : ∀ text, .item text ∈ lines.map LogLine.notice → reportCount text = none) :
    lines.map LogLine.reading = lines.map LogLine.notice := by
  refine List.map_congr_left fun line member => ?_
  have here := List.mem_map_of_mem (f := LogLine.notice) member
  cases line with
  | message level text =>
      unfold LogLine.reading
      rw [show reportCount (LogLine.message level text).text = none from items text here]
      rfl
  | report count =>
      unfold LogLine.reading
      rw [reportCount_report (Nat.lt_trans (counts count here) (by decide))]
      rfl

theorem distinguished_iff (mirrors : Mirrors lastMessage l r) (sound : r.Sound []) (msg : LogMessage) :
    msg.Distinguished l ↔
      (r.holds loggingAggregateMessages msg.arrival = true → (Repetitions.decode r.out).2 = some msg.text) := by
  unfold LogMessage.Distinguished Logger.lastWritten Repetitions.holds
  rw [mirrors.lines, mirrors.count, Bool.and_eq_true, decide_eq_true_iff]
  have test : msg.arrival.same r.remembered = true ↔ msg.text = r.remembered.take msg.size := decide_eq_true_iff
  rw [test]
  rcases sound.last with last | ⟨empty, blank⟩
  · rw [last]
    refine ⟨fun distinguished held => ?_, fun same => ?_⟩
    · rcases distinguished with full | equal
      · exact absurd held.2 (Nat.not_lt_of_le full)
      · rw [equal held.1]
    · by_cases full : loggingAggregateMessages ≤ r.count
      · exact Or.inl full
      · refine Or.inr fun begins => ?_
        exact (Option.some.inj (same ⟨begins, Nat.lt_of_not_le full⟩)).symm
  · rw [empty, blank, List.take_nil]
    refine ⟨fun distinguished held => ?_, fun same => ?_⟩
    · rcases distinguished with full | nonempty
      · exact absurd held.2 (Nat.not_lt_of_le full)
      · exact absurd held.1 nonempty
    · by_cases full : loggingAggregateMessages ≤ r.count
      · exact Or.inl full
      · refine Or.inr fun none => ?_
        exact absurd (same ⟨none, Nat.lt_of_not_le full⟩) (by simp [Repetitions.decode])

theorem LogOp.distinguished_iff (op : LogOp lastMessage) (mirrors : Mirrors lastMessage l r) (sound : r.Sound []) :
    (∀ msg ∈ op.logged l, msg.Distinguished l) ↔
      r.Faithful loggingAggregateMessages ((op.logged l).map LogMessage.arrival) := by
  have none : (∀ msg ∈ ([] : List LogMessage), msg.Distinguished l) ↔ r.Faithful loggingAggregateMessages [] :=
    ⟨fun _ => trivial, fun _ msg member => absurd member List.not_mem_nil⟩
  cases op with
  | message msg frame =>
      rw [logged]
      split
      · exact none
      · rw [List.forall_mem_singleton, Logging.distinguished_iff mirrors sound msg]
        exact (and_iff_left trivial).symm
  | setLevel level => exact none
  | setQuiet enable => exact none

theorem allDistinguished_iff (ops : List (LogOp lastMessage)) : ∀ {l : Logger} {r : Repetitions (List UInt8)},
    Mirrors lastMessage l r → r.Sound [] →
      (AllDistinguished ops l ↔
        r.Faithful loggingAggregateMessages ((loggedMessages ops l).map LogMessage.arrival)) := by
  induction ops with
  | nil => exact fun _ _ => Iff.rfl
  | cons op rest ih =>
      intro l r mirrors sound
      obtain ⟨l', returned, next⟩ := op.run_mirrors mirrors
      have later := ih next (sound.feedAll _)
      rw [AllDistinguished, loggedMessages, returned, Option.elim_some, List.map_append, Repetitions.faithful_append,
        op.distinguished_iff mirrors sound]
      refine and_congr_right fun _ => ⟨fun all => later.mp (all l' rfl), fun faithful l₁ isNext => ?_⟩
      rw [← Option.some.inj isNext]
      exact later.mpr faithful

/-- For every sequence of calls from the beginning on: the texts of the lines, with every one that reads as a report
replaced by copies of the text before it, and the pending copies give back the texts logged if and only if no
message reads as a report and every message was distinguished from the one before it. -/
theorem log_restores_iff (fresh : Fresh lastMessage l) (ops : List (LogOp lastMessage)) :
    ∃ l', runLog ops l = some l' ∧
      (l'.restored = (loggedMessages ops l).map LogMessage.text ↔
        (∀ msg ∈ loggedMessages ops l, reportCount msg.text = none) ∧ AllDistinguished ops l) := by
  obtain ⟨l', returned, mirrors⟩ := runLog_mirrors ops fresh.mirrors
  refine ⟨l', returned, ?_⟩
  have isItem : ((loggedMessages ops l).map LogMessage.arrival).map Arrival.item =
      (loggedMessages ops l).map LogMessage.text := List.map_map
  have decoded : (∀ msg ∈ loggedMessages ops l, reportCount msg.text = none) →
      l'.restored = (feedMessages (loggedMessages ops l) (.start [])).decoded := by
    intro unlike
    have same : l'.lines.map LogLine.reading = l'.lines.map LogLine.notice := by
      refine reading_eq_notice (fun count member => ?_) fun text member => ?_
      · rw [mirrors.lines] at member
        exact Repetitions.again_lt (by decide) _ (Nat.zero_le _) (fun _ none => absurd none List.not_mem_nil) count member
      · rw [mirrors.lines] at member
        rcases Repetitions.mem_out _ member with none | arrived
        · cases none
        · rw [isItem] at arrived
          obtain ⟨msg, logged, rfl⟩ := List.mem_map.mp arrived
          exact unlike msg logged
    unfold Logger.restored Repetitions.decoded
    rw [same, mirrors.lines, mirrors.count]
  have faithful : (feedMessages (loggedMessages ops l) (.start [])).decoded = (loggedMessages ops l).map LogMessage.text ↔
      AllDistinguished ops l := by
    rw [allDistinguished_iff ops fresh.mirrors (.start []), ← Repetitions.decoded_eq_iff [], isItem]
    rfl
  refine ⟨fun restores => ?_, fun ⟨unlike, distinguished⟩ => (decoded unlike).trans (faithful.mpr distinguished)⟩
  have unlike : ∀ msg ∈ loggedMessages ops l, reportCount msg.text = none := fun msg logged =>
    reportCount_restored (restores ▸ List.mem_map_of_mem logged)
  exact ⟨unlike, faithful.mp ((decoded unlike).symm.trans restores)⟩

/-! ## Counting -/

/-- A message with a text, and without a NUL in it. -/
def LogMessage.Plain (msg : LogMessage) : Prop := msg.bytes ≠ [] ∧ 0 ∉ msg.bytes

instance (msg : LogMessage) : Decidable msg.Plain := inferInstanceAs (Decidable (msg.bytes ≠ [] ∧ 0 ∉ msg.bytes))

theorem LogMessage.Plain.distinct {msg : LogMessage} (plain : msg.Plain) : msg.arrival.same [] = false := by
  have whole : msg.text = msg.bytes :=
    List.takeWhile_eq_self_iff.mpr fun c member => by
      rw [decide_eq_true_iff]
      exact fun zero => plain.2 (zero ▸ member)
  unfold LogMessage.arrival
  dsimp only
  rw [List.take_nil, whole, decide_eq_false_iff_not]
  exact plain.1

/-- The messages written. -/
def Logger.written (l : Logger) : Nat := Repetitions.written (l.lines.map LogLine.notice)

/-- The sum of the counts reported. -/
def Logger.reported (l : Logger) : Nat := Repetitions.reported (l.lines.map LogLine.notice)

theorem counted_of_plain {messages : List LogMessage} (plain : ∀ msg ∈ messages, msg.Plain) :
    Repetitions.Counted [] loggingAggregateMessages messages.length (feedMessages messages (.start [])) := by
  have counted := Repetitions.Counted.feedAll (by decide) (messages.map LogMessage.arrival)
    (.start [] loggingAggregateMessages) (List.forall_mem_map.mpr fun msg member => (plain msg member).distinct)
  rwa [Nat.zero_add, List.length_map] at counted

theorem announced_lines {lines : List LogLine} (announced : Repetitions.Announced (lines.map LogLine.notice)) :
    ∀ before count after, lines = before ++ .report count :: after →
      ∃ level text rest, after = .message level text :: rest := by
  intro before count after split
  obtain ⟨text, rest, next⟩ := announced (before.map LogLine.notice) count (after.map LogLine.notice) (by
    rw [split, List.map_append]
    rfl)
  cases after with
  | nil => cases next
  | cons line after =>
      cases line with
      | message level text' => exact ⟨level, text', after, rfl⟩
      | report count' => cases next

/-- For every sequence of calls with messages that are not empty: each message logged was written, was counted
in a report or is pending; a report stands right before a message; and no more than 29 messages in a row are
suppressed. -/
theorem log_counts (fresh : Fresh lastMessage l) (ops : List (LogOp lastMessage))
    (plain : ∀ msg ∈ loggedMessages ops l, msg.Plain) :
    ∃ l', runLog ops l = some l' ∧
      l'.written + l'.reported + (l'.repetitions - 1) = (loggedMessages ops l).length ∧
      (∀ before count after, l'.lines = before ++ .report count :: after →
        ∃ level text rest, after = .message level text :: rest) ∧
      ∀ first second l₁, ops = first ++ second → runLog first l = some l₁ → l₁.lines.length = l'.lines.length →
        (loggedMessages second l₁).length ≤ 29 := by
  obtain ⟨l', returned, mirrors⟩ := runLog_mirrors ops fresh.mirrors
  have counted := counted_of_plain plain
  refine ⟨l', returned, ?_, announced_lines (mirrors.lines ▸ counted.announced), ?_⟩
  · unfold Logger.written Logger.reported
    rw [mirrors.lines, mirrors.count]
    exact counted.total
  · rintro first second l₁ rfl before silent
    obtain ⟨l₂, returned', mirrors₁⟩ := runLog_mirrors first fresh.mirrors
    obtain rfl : l₁ = l₂ := Option.some.inj (before.symm.trans returned')
    obtain ⟨-, messages⟩ := runLog_append first second before
    rw [messages] at plain mirrors
    rw [feedMessages_append] at mirrors
    have earlier := counted_of_plain fun msg member => plain msg (List.mem_append_left _ member)
    have quiet := earlier.silent (by decide) ((loggedMessages second l₁).map LogMessage.arrival)
      (List.forall_mem_map.mpr fun msg member => (plain msg (List.mem_append_right _ member)).distinct) (by
        have same := congrArg List.length mirrors.lines
        have same₁ := congrArg List.length mirrors₁.lines
        rw [List.length_map] at same same₁
        exact same.symm.trans (silent.symm.trans same₁))
    rw [List.length_map] at quiet
    exact Nat.le_of_lt_succ quiet

end Runs

/-! ## Samples -/

theorem initial_fresh (lastMessage : Nat) : Fresh lastMessage .initial := ⟨rfl, fun _ _ => rfl, rfl⟩

/-- `last_message` at `0x1000` and the buffer at `0x2000`. -/
def sampleFrame : Frame 0x1000 := ⟨0x2000, by decide, by decide, by decide⟩

/-- A message of one letter, and one of this letter and another. -/
def shortMessage : LogMessage := ⟨logInfo, literal "a", []⟩

def longMessage : LogMessage := ⟨logInfo, literal "ab", []⟩

def emptyMessage : LogMessage := ⟨logInfo, [], []⟩

/-- A message that reads as a report. -/
def forgedMessage : LogMessage := ⟨logInfo, literal ">> last message repeat more 5 times", []⟩

/-- A message of one character more than there is room for. -/
def fullMessage : LogMessage := ⟨logInfo, List.replicate 256 (byte 'x'), []⟩

theorem log_restores_sample :
    ∃ l', runLog [.message shortMessage sampleFrame, .message shortMessage sampleFrame,
        .message longMessage sampleFrame] .initial = some l' ∧
      l'.restored = [literal "a", literal "a", literal "ab"] := by
  obtain ⟨l', returned, restores⟩ := log_restores_iff (initial_fresh 0x1000)
    [.message shortMessage sampleFrame, .message shortMessage sampleFrame, .message longMessage sampleFrame]
  have texts : (loggedMessages [.message shortMessage sampleFrame, .message shortMessage sampleFrame,
      .message longMessage sampleFrame] .initial).map LogMessage.text =
        [literal "a", literal "a", literal "ab"] := by decide +kernel
  rw [texts] at restores
  exact ⟨l', returned, restores.mpr ⟨by decide +kernel, by decide +kernel⟩⟩

/-- The beginning of the last message is suppressed as its repetition, and the empty text before any message; and a
message may read as a report. -/
theorem shorter_message_lost :
    ((loggedMessages [.message longMessage sampleFrame, .message shortMessage sampleFrame] .initial).map
        LogMessage.text = [literal "ab", literal "a"] ∧
      (runLog [.message longMessage sampleFrame, .message shortMessage sampleFrame] .initial).map
        (fun l => (l.lines, l.repetitions, l.restored)) =
          some ([.message logInfo (literal "ab")], 2, [literal "ab", literal "ab"])) ∧
    ((loggedMessages [.message emptyMessage sampleFrame] .initial).map LogMessage.text = [[]] ∧
      (runLog [.message emptyMessage sampleFrame] .initial).map (fun l => (l.lines, l.restored)) = some ([], [])) ∧
    (runLog [.message shortMessage sampleFrame, .message forgedMessage sampleFrame] .initial).map (·.restored) =
      some (List.replicate 6 (literal "a")) := by
  refine ⟨⟨by decide +kernel, by decide +kernel⟩, ⟨by decide +kernel, by decide +kernel⟩, by decide +kernel⟩

/-- Messages that fill the buffer are counted as well. -/
theorem log_counts_sample :
    ∃ l', runLog [.message longMessage sampleFrame, .message shortMessage sampleFrame,
        .message fullMessage sampleFrame] .initial = some l' ∧
      l'.written + l'.reported + (l'.repetitions - 1) = 3 := by
  obtain ⟨l', returned, total, -⟩ := log_counts (initial_fresh 0x1000)
    [.message longMessage sampleFrame, .message shortMessage sampleFrame, .message fullMessage sampleFrame]
    (by decide +kernel)
  have three : (loggedMessages [.message longMessage sampleFrame, .message shortMessage sampleFrame,
      .message fullMessage sampleFrame] .initial).length = 3 := by decide +kernel
  exact ⟨l', returned, total.trans three⟩

end BubackOS.Logging
