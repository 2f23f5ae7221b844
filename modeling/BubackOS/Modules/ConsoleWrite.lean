import BubackOS.Modules.Console

/-!
# Writing to the console

A write against a terminal that is given the bytes one after the other.  The text between
two control characters is a chunk.  A chunk that stays on its line, up to the edge, is shown
as the terminal shows it; one character more and the cursor is in another place, because the
rounds of `terminal_writesequence` do not count down the length.
-/

namespace BubackOS.Modules

open Library Libc

/-! ## Bytes as keys -/

/-- What a byte is to the terminal. -/
def keyOf (color b : UInt8) : Key Nat :=
  if b = byte '\n' then .newline
  else if b = byte '\r' then .return
  else if b = byte '\t' then .tab
  else .print (vgaEntry (charWord b) color.toNat)

/-- `count` bytes from `i` on. -/
def keys (color : UInt8) (data : Nat → UInt8) (i count : Nat) : List (Key Nat) :=
  (List.range' i count).map fun j => keyOf color (data j)

/-- The cells of `count` characters from `i` on. -/
def entries (color : UInt8) (data : Nat → UInt8) (i count : Nat) : List Nat :=
  (List.range' i count).map fun j => vgaEntry (charWord (data j)) color.toNat

section Keys

variable {color : UInt8} {data : Nat → UInt8}

theorem keys_append (i first second : Nat) :
    keys color data i (first + second) = keys color data i first ++ keys color data (i + first) second := by
  unfold keys
  rw [← List.map_append, List.range'_append_1]

theorem keys_one (i : Nat) : keys color data i 1 = [keyOf color (data i)] := rfl

theorem entries_append (i first second : Nat) :
    entries color data i (first + second) = entries color data i first ++ entries color data (i + first) second := by
  unfold entries
  rw [← List.map_append, List.range'_append_1]

theorem entries_length (i count : Nat) : (entries color data i count).length = count := by
  rw [entries, List.length_map, List.length_range']

theorem entries_getElem? (i count j : Nat) : (entries color data i count)[j]? =
    if j < count then some (vgaEntry (charWord (data (i + j))) color.toNat) else none := by
  unfold entries
  rw [List.getElem?_map]
  by_cases inside : j < count
  · rw [if_pos inside, List.getElem?_range' inside, Nat.one_mul]
    rfl
  · rw [if_neg inside, List.getElem?_eq_none (by rw [List.length_range']; omega)]
    rfl

theorem keys_shift (start i count : Nat) :
    keys color (fun j => data (start + j)) i count = keys color data (start + i) count := by
  unfold keys
  rw [← List.map_add_range', List.map_map]
  rfl

theorem entries_shift (start i count : Nat) :
    entries color (fun j => data (start + j)) i count = entries color data (start + i) count := by
  unfold entries
  rw [← List.map_add_range', List.map_map]
  rfl

theorem keyOf_print {b : UInt8} {a : Nat} (print : keyOf color b = .print a) :
    a = vgaEntry (charWord b) color.toNat := by
  unfold keyOf at print
  split at print
  · cases print
  · split at print
    · cases print
    · split at print
      · cases print
      · exact (Key.print.inj print).symm

end Keys

/-! ## Rounds -/

section Rounds

variable {c : Console} {s : Reference} (sequence : Nat → UInt8) {length : Nat}

theorem charsToWrite_eq (edge : c.terminalColumn ≤ consoleWidth) (bound : length < 2 ^ 31) :
    charsToWrite length c = min (consoleWidth - c.terminalColumn) length := by
  have room : wrapSub consoleWidth c.terminalColumn = consoleWidth - c.terminalColumn := wrapSub_of_le edge (by decide)
  have small : consoleWidth - c.terminalColumn < 2 ^ 31 := by
    unfold consoleWidth
    omega
  unfold charsToWrite
  rw [room, asInt_eq_iff.mpr small, asInt_eq_iff.mpr bound]
  omega

/-- The cells of `console_raw_write` on one line. -/
theorem consoleRawWrite_spec (shows : Shows c s) {count : Nat} (fits : s.col + count ≤ consoleWidth) (written : Nat) :
    let raw := consoleRawWrite (fun i => sequence (written + i)) count c.terminalColor c.terminalRow c.terminalColumn c
    Confined c raw ∧ Displays raw (s.setCells (TextScreen.overlay s.cells (s.row * consoleWidth + s.col)
      (entries c.terminalColor sequence written count))) := by
  have inside : s.row * consoleWidth + s.col + count ≤ consoleCells := by
    have rows : (s.row + 1) * consoleWidth ≤ consoleHeight * consoleWidth := Nat.mul_le_mul_right _ s.rowInside
    unfold consoleCells
    rw [Nat.add_mul, Nat.one_mul] at rows
    omega
  unfold consoleRawWrite
  rw [shows.row, shows.col]
  dsimp only
  generalize s.row * consoleWidth + s.col = base at inside ⊢
  obtain ⟨row, -, color, noted⟩ := storeCells_spec ((List.range count).map fun i =>
    (base + i, vgaEntry (charWord (sequence (written + i))) c.terminalColor.toNat)) c
  have member : ∀ j, j ∈ ((List.range count).map fun i =>
      (base + i, vgaEntry (charWord (sequence (written + i))) c.terminalColor.toNat)).map Prod.fst ↔
        base ≤ j ∧ j < base + count := by
    intro j
    rw [List.map_map, List.mem_map]
    refine ⟨?_, fun ⟨low, high⟩ => ⟨j - base, List.mem_range.mpr (by omega), Nat.add_sub_cancel' low⟩⟩
    rintro ⟨i, small, rfl⟩
    exact ⟨Nat.le_add_right _ _, Nat.add_lt_add_left (List.mem_range.mp small) _⟩
  refine ⟨⟨⟨_, noted, fun i stored => ?_⟩, color⟩, fun j _ => ?_, row.trans shows.row⟩
  · exact Nat.lt_of_lt_of_le ((member i).mp (List.mem_reverse.mp stored)).2 inside
  · have values : ∀ store ∈ (List.range count).map fun i =>
        (base + i, vgaEntry (charWord (sequence (written + i))) c.terminalColor.toNat),
        store.2 = vgaEntry (charWord (sequence (written + (store.1 - base)))) c.terminalColor.toNat := by
      intro store stored
      obtain ⟨i, -, rfl⟩ := List.mem_map.mp stored
      dsimp only
      rw [Nat.add_sub_cancel_left]
    rw [storeCells_cell (fun j => vgaEntry (charWord (sequence (written + (j - base)))) c.terminalColor.toNat)
      (fun _ => vgaEntry_lt _ _) _ values]
    unfold TextScreen.setCells TextScreen.overlay
    dsimp only
    rw [entries_getElem?]
    by_cases low : base ≤ j
    · rw [if_pos low]
      by_cases high : j - base < count
      · rw [if_pos ((member j).mpr ⟨low, by omega⟩), if_pos high]
        rfl
      · rw [if_neg (fun stored => high (by have := ((member j).mp stored).2; omega)), if_neg high]
        exact shows.cells j ‹_›
    · rw [if_neg low, if_neg (fun stored => low ((member j).mp stored).1)]
      exact shows.cells j ‹_›

/-- One round. -/
theorem writeRound_spec (shows : Shows c s) (bound : length < 2 ^ 31) (written : Nat) :
    Confined c (writeRound sequence length written c) ∧
      Shows (writeRound sequence length written c) (s.pressAll 0 tabSize
        ((entries c.terminalColor sequence written (min (consoleWidth - s.col) length)).map .print)) := by
  have edge : c.terminalColumn < consoleWidth := shows.col ▸ s.colInside
  have count := charsToWrite_eq (Nat.le_of_lt edge) bound
  rw [shows.col] at count
  have fits : s.col + min (consoleWidth - s.col) length ≤ consoleWidth := by
    have := s.colInside
    omega
  have column : wrap (c.terminalColumn + charsToWrite length c) = s.col + min (consoleWidth - s.col) length := by
    rw [count, shows.col]
    refine wrap_of_lt (Nat.lt_of_le_of_lt fits (by decide))
  obtain ⟨confined, displays⟩ := consoleRawWrite_spec sequence shows fits written
  unfold writeRound
  dsimp only
  rw [column, count]
  rw [TextScreen.pressAll_line _ (by rw [entries_length]; exact fits), entries_length]
  generalize consoleRawWrite (fun i => sequence (written + i)) (min (consoleWidth - s.col) length) c.terminalColor
    c.terminalRow c.terminalColumn c = raw at confined displays ⊢
  have moved : Confined raw { raw with terminalColumn := s.col + min (consoleWidth - s.col) length } :=
    Confined.of_eq rfl rfl
  obtain ⟨settled, after⟩ := settle_spec
    (c := { raw with terminalColumn := s.col + min (consoleWidth - s.col) length }) ⟨displays.cells, displays.row⟩
  exact ⟨(confined.trans moved).trans settled, after⟩

/-- The rounds that are left are enough, and the cursor stays on the screen. -/
theorem writeLoop_returns (bound : length < 2 ^ 31) (rounds : Nat) :
    ∀ {c : Console} {s : Reference} {written : Nat}, Shows c s → written ≤ length → length - written < rounds →
      ∃ c' s', writeLoop sequence length rounds written c = some c' ∧ Confined c c' ∧ Shows c' s' := by
  induction rounds with
  | zero => exact fun _ _ enough => absurd enough (Nat.not_lt_zero _)
  | succ rounds ih =>
      intro c s written shows behind enough
      have edge : c.terminalColumn < consoleWidth := shows.col ▸ s.colInside
      have count := charsToWrite_eq (Nat.le_of_lt edge) bound
      have next : wrap (written + charsToWrite length c) = written + charsToWrite length c :=
        wrap_of_lt (by omega)
      obtain ⟨confined, after⟩ := writeRound_spec sequence shows bound written
      unfold writeLoop
      dsimp only
      by_cases more : wrap (written + charsToWrite length c) < length
      · rw [if_pos more]
        rw [next] at more ⊢
        obtain ⟨c', s', returns, later, shown⟩ := ih after (Nat.le_of_lt more) (by omega)
        exact ⟨c', s', returns, confined.trans later, shown⟩
      · rw [if_neg more]
        exact ⟨_, _, rfl, confined, after⟩

/-- A round more changes nothing. -/
theorem writeLoop_succ (rounds : Nat) : ∀ {written : Nat} {c c' : Console},
    writeLoop sequence length rounds written c = some c' →
      writeLoop sequence length (rounds + 1) written c = some c' := by
  induction rounds with
  | zero => exact fun returns => absurd returns.symm (Option.some_ne_none _)
  | succ rounds ih =>
      intro written c c' returns
      unfold writeLoop at returns ⊢
      dsimp only at returns ⊢
      split at returns
      · rw [if_pos ‹_›]
        exact ih returns
      · rw [if_neg ‹_›]
        exact returns

end Rounds

/-! ## Chunks -/

/-- Before a chunk; after a tab the cursor may be at the edge. -/
structure Waits (c : Console) (t : Reference) : Prop where
  edge : c.terminalColumn ≤ consoleWidth
  confined : Confined c (settle c)
  shows : Shows (settle c) t

theorem Shows.waits {c : Console} {t : Reference} (shows : Shows c t) : Waits c t := by
  have inside : c.terminalColumn < consoleWidth := shows.col ▸ t.colInside
  refine ⟨Nat.le_of_lt inside, ?_, ?_⟩
  · rw [settle_inside inside]
    exact Confined.of_eq rfl rfl
  · rw [settle_inside inside]
    exact shows

section Chunks

variable {c : Console} {t : Reference} (sequence : Nat → UInt8) {length : Nat}

/-- A round without characters. -/
theorem writeRound_none (none : charsToWrite length c = 0) (edge : c.terminalColumn ≤ consoleWidth) :
    writeRound sequence length 0 c = settle c := by
  unfold writeRound
  rw [none, Nat.add_zero, wrap_of_lt (Nat.lt_of_le_of_lt edge (by decide))]
  rfl

/-- At the edge the first round only goes to the next line. -/
theorem terminalWritesequence_edge (edge : c.terminalColumn = consoleWidth) (bound : length < 2 ^ 31) :
    terminalWritesequence sequence length c =
      if 0 < length then writeLoop sequence length (length + 1) 0 (settle c) else some (settle c) := by
  have none : charsToWrite length c = 0 := by
    rw [charsToWrite_eq (Nat.le_of_eq edge) bound, edge, Nat.sub_self, Nat.zero_min]
  unfold terminalWritesequence
  conv_lhs => unfold writeLoop
  dsimp only
  rw [none, writeRound_none sequence none (Nat.le_of_eq edge)]
  rfl

/-- A chunk starts at a place inside the screen. -/
theorem terminalWritesequence_eq (waits : Waits c t) (bound : length < 2 ^ 31) :
    terminalWritesequence sequence length c = writeLoop sequence length (length + 1) 0 (settle c) := by
  rcases Nat.lt_or_eq_of_le waits.edge with inside | edge
  · obtain ⟨c', -, returns, -, -⟩ :=
      writeLoop_returns sequence bound (length + 1) waits.shows (Nat.zero_le _) (Nat.lt_succ_self _)
    rw [returns]
    rw [settle_inside inside] at returns
    exact writeLoop_succ sequence _ returns
  · rw [terminalWritesequence_edge sequence edge bound]
    by_cases empty : length = 0
    · have inside : (settle c).terminalColumn < consoleWidth := waits.shows.col ▸ t.colInside
      have none : charsToWrite 0 (settle c) = 0 := by
        rw [charsToWrite_eq (Nat.le_of_lt inside) (by decide), Nat.min_zero]
      subst empty
      rw [if_neg (Nat.lt_irrefl 0)]
      unfold writeLoop
      dsimp only
      rw [none, writeRound_none sequence none (Nat.le_of_lt inside), settle_inside inside]
      rfl
    · exact if_pos (Nat.pos_of_ne_zero empty)

theorem terminalWritesequence_returns (waits : Waits c t) (bound : length < 2 ^ 31) :
    ∃ c' t', terminalWritesequence sequence length c = some c' ∧ Confined c c' ∧ Shows c' t' := by
  obtain ⟨c', t', returns, confined, shows⟩ :=
    writeLoop_returns sequence bound (length + 1) waits.shows (Nat.zero_le _) (Nat.lt_succ_self _)
  exact ⟨c', t', (terminalWritesequence_eq sequence waits bound).trans returns, waits.confined.trans confined, shows⟩

/-- A chunk that stays on its line. -/
theorem terminalWritesequence_fits (waits : Waits c t) (fits : t.col + length ≤ consoleWidth) :
    ∃ c', terminalWritesequence sequence length c = some c' ∧ Confined c c' ∧
      Shows c' (t.pressAll 0 tabSize ((entries c.terminalColor sequence 0 length).map .print)) := by
  have bound : length < 2 ^ 31 := by
    unfold consoleWidth at fits
    omega
  have inside : (settle c).terminalColumn < consoleWidth := waits.shows.col ▸ t.colInside
  have whole : min (consoleWidth - t.col) length = length := by omega
  have count : charsToWrite length (settle c) = length := by
    rw [charsToWrite_eq (Nat.le_of_lt inside) bound, waits.shows.col, whole]
  obtain ⟨confined, after⟩ := writeRound_spec sequence waits.shows bound 0
  rw [whole, waits.confined.color] at after
  refine ⟨_, ?_, waits.confined.trans confined, after⟩
  rw [terminalWritesequence_eq sequence waits bound]
  unfold writeLoop
  dsimp only
  rw [count, Nat.zero_add, wrap_of_lt (Nat.lt_trans bound (by decide)), if_neg (Nat.lt_irrefl _)]

/-- One character more: the second round writes the whole length again. -/
theorem terminalWritesequence_overfull {n : Nat} (waits : Waits c t) (overfull : t.col + n = consoleWidth) :
    ∃ c', terminalWritesequence sequence (n + 1) c = some c' ∧ c'.terminalColumn ≠ 1 := by
  have width : consoleWidth = 80 := rfl
  have start := t.colInside
  have bound : n + 1 < 2 ^ 31 := by omega
  have inside : (settle c).terminalColumn < consoleWidth := waits.shows.col ▸ t.colInside
  have line : min (consoleWidth - t.col) (n + 1) = n := by omega
  have count : charsToWrite (n + 1) (settle c) = n := by
    rw [charsToWrite_eq (Nat.le_of_lt inside) bound, waits.shows.col, line]
  obtain ⟨-, between⟩ := writeRound_spec sequence waits.shows bound 0
  have column : (t.pressAll 0 tabSize ((entries (settle c).terminalColor sequence 0
      (min (consoleWidth - t.col) (n + 1))).map .print)).col = 0 := by
    rw [TextScreen.pressAll_line_col (by rw [entries_length]; omega), entries_length, line, overfull, Nat.mod_self]
  have rounds : terminalWritesequence sequence (n + 1) c =
      writeLoop sequence (n + 1) (n + 1) n (writeRound sequence (n + 1) 0 (settle c)) := by
    rw [terminalWritesequence_eq sequence waits bound]
    conv_lhs => unfold writeLoop
    dsimp only
    rw [count, Nat.zero_add, wrap_of_lt (by omega), if_pos (Nat.lt_succ_self n)]
  generalize writeRound sequence (n + 1) 0 (settle c) = c₁ at between rounds
  generalize t.pressAll 0 tabSize ((entries (settle c).terminalColor sequence 0
    (min (consoleWidth - t.col) (n + 1))).map .print) = t₁ at between column
  have again : charsToWrite (n + 1) c₁ = min consoleWidth (n + 1) := by
    rw [charsToWrite_eq (by rw [between.col, column]; exact Nat.zero_le _) bound, between.col, column, Nat.sub_zero]
  obtain ⟨-, after⟩ := writeRound_spec sequence between bound n
  refine ⟨writeRound sequence (n + 1) n c₁, ?_, ?_⟩
  · rw [rounds]
    unfold writeLoop
    dsimp only
    rw [again, wrap_of_lt (by omega), if_neg (by omega)]
  · rw [after.col, TextScreen.pressAll_line_col (by rw [entries_length]; omega), entries_length, column, width]
    omega

end Chunks

/-! ## Control characters -/

/-- What `console_write` does after the chunk before a control character. -/
def control : Key Nat → Console → Console
  | .newline, c => newline c
  | .return, c => { c with terminalColumn := 0 }
  | .tab, c => { c with terminalColumn := (c.terminalColumn / tabSize + 1) * tabSize }
  | .print _, c => c

section Control

variable {c : Console} {t : Reference} {color : UInt8} {data : Nat → UInt8} {i : Nat}

theorem writeScan_print {a : Nat} (print : keyOf color (data i) = .print a) (left start : Nat) :
    writeScan data (left + 1) i start c = writeScan data left (i + 1) start c := by
  unfold keyOf at print
  conv_lhs => unfold writeScan
  by_cases line : data i = byte '\n'
  · rw [if_pos line] at print
    cases print
  rw [if_neg line] at print ⊢
  by_cases back : data i = byte '\r'
  · rw [if_pos back] at print
    cases print
  rw [if_neg back] at print ⊢
  by_cases tab : data i = byte '\t'
  · rw [if_pos tab] at print
    cases print
  rw [if_neg tab]

theorem writeScan_control (steers : ∀ a, keyOf color (data i) ≠ .print a) (left start : Nat) :
    writeScan data (left + 1) i start c = (terminalWritesequence (fun j => data (start + j)) (i - start) c).bind fun c =>
      writeScan data left (i + 1) (i + 1) (control (keyOf color (data i)) c) := by
  unfold keyOf at steers ⊢
  conv_lhs => unfold writeScan
  by_cases line : data i = byte '\n'
  · rw [if_pos line, if_pos line]
    rfl
  rw [if_neg line, if_neg line]
  rw [if_neg line] at steers
  by_cases back : data i = byte '\r'
  · rw [if_pos back, if_pos back]
    rfl
  rw [if_neg back, if_neg back]
  rw [if_neg back] at steers
  by_cases tab : data i = byte '\t'
  · rw [if_pos tab, if_pos tab]
    rfl
  rw [if_neg tab] at steers
  exact absurd rfl (steers _)

/-- A control character, with the cursor at the edge after some tabs. -/
theorem control_spec (shows : Shows c t) {key : Key Nat} (steers : ∀ a, key ≠ .print a) :
    Confined c (control key c) ∧ Waits (control key c) (t.press 0 tabSize key) := by
  cases key with
  | print a => exact absurd rfl (steers a)
  | newline =>
      obtain ⟨confined, after⟩ := newline_spec shows.toDisplays
      exact ⟨confined, after.waits⟩
  | «return» =>
      have after : Shows (control .return c) (t.press 0 tabSize .return) := ⟨⟨shows.cells, shows.row⟩, rfl⟩
      exact ⟨Confined.of_eq rfl rfl, after.waits⟩
  | tab =>
      have displays : Displays (control .tab c) t := ⟨shows.cells, shows.row⟩
      obtain ⟨confined, after⟩ := settle_spec displays
      have stop : (control .tab c).terminalColumn = (t.col / tabSize + 1) * tabSize := by
        rw [← shows.col]
        rfl
      rw [stop] at after
      refine ⟨Confined.of_eq rfl rfl, ?_, confined, after⟩
      have inside := t.colInside
      rw [stop]
      unfold tabSize consoleWidth at *
      omega

/-- Every write returns, with the cursor on the screen. -/
theorem writeScan_returns (left : Nat) : ∀ {i : Nat} (start : Nat) {c : Console} {t : Reference}, Waits c t →
    i + left < 2 ^ 31 → ∃ c' t', writeScan data left i start c = some c' ∧ Confined c c' ∧ Shows c' t' := by
  induction left with
  | zero => exact fun start c t waits bound => terminalWritesequence_returns _ waits (by omega)
  | succ left ih =>
      intro i start c t waits bound
      by_cases print : ∃ a, keyOf c.terminalColor (data i) = .print a
      · obtain ⟨a, print⟩ := print
        rw [writeScan_print print]
        exact ih start waits (by omega)
      · have steers : ∀ a, keyOf c.terminalColor (data i) ≠ .print a := fun a here => print ⟨a, here⟩
        obtain ⟨c', t', returns, confined, shows⟩ :=
          terminalWritesequence_returns (fun j => data (start + j)) waits (show i - start < 2 ^ 31 by omega)
        obtain ⟨steered, waits'⟩ := control_spec shows steers
        obtain ⟨c'', t'', rest, later, shows'⟩ := ih (i + 1) waits' (show i + 1 + left < 2 ^ 31 by omega)
        refine ⟨c'', t'', ?_, (confined.trans steered).trans later, shows'⟩
        rw [writeScan_control steers, returns]
        exact rest

end Control

/-! ## Whole writes -/

/-- The column where the chunk that is open started, and its length. -/
def pendingStep (p : Nat × Nat) : Key Nat → Nat × Nat
  | .newline => (0, 0)
  | .return => (0, 0)
  | .tab => (((p.1 + p.2) % consoleWidth / tabSize + 1) * tabSize % consoleWidth, 0)
  | .print _ => (p.1, p.2 + 1)

def pending (p : Nat × Nat) (text : List (Key Nat)) : Nat × Nat := text.foldl pendingStep p

/-- The chunk ends on its line, at its edge at the latest. -/
def Fits (p : Nat × Nat) : Prop := p.1 + p.2 ≤ consoleWidth

instance (p : Nat × Nat) : Decidable (Fits p) := inferInstanceAs (Decidable (_ ≤ _))

theorem pending_append (p : Nat × Nat) (first second : List (Key Nat)) :
    pending p (first ++ second) = pending (pending p first) second := List.foldl_append

theorem pending_succ (p : Nat × Nat) (color : UInt8) (data : Nat → UInt8) (i m : Nat) :
    pending p (keys color data i (m + 1)) =
      pendingStep (pending p (keys color data i m)) (keyOf color (data (i + m))) := by
  rw [keys_append, pending_append]
  rfl

/-- The loop of `console_write` at byte `i`, with a chunk open since `start`; `t` is the terminal before the chunk. -/
structure Scanning (color : UInt8) (data : Nat → UInt8) (i start : Nat) (c : Console) (t : Reference) : Prop where
  painted : c.terminalColor = color
  waits : Waits c t
  order : start ≤ i
  plain : keys color data start (i - start) = (entries color data start (i - start)).map .print

/-- The terminal after the chunk. -/
def typed (color : UInt8) (data : Nat → UInt8) (i count : Nat) (t : Reference) : Reference :=
  t.pressAll 0 tabSize (keys color data i count)

theorem typed_add (color : UInt8) (data : Nat → UInt8) (i first second : Nat) (t : Reference) :
    typed color data i (first + second) t = typed color data (i + first) second (typed color data i first t) := by
  unfold typed
  rw [keys_append, TextScreen.pressAll_append]

section Scans

variable {color : UInt8} {data : Nat → UInt8} {i start : Nat} {c : Console} {t : Reference}

/-- The open chunk, if it fits, is shown as the terminal shows it. -/
theorem Scanning.flush (scanning : Scanning color data i start c t) (fits : Fits (t.col, i - start)) :
    ∃ c', terminalWritesequence (fun j => data (start + j)) (i - start) c = some c' ∧ Confined c c' ∧
      Shows c' (typed color data start (i - start) t) := by
  obtain ⟨c', returns, confined, shows⟩ :=
    terminalWritesequence_fits (fun j => data (start + j)) scanning.waits fits
  rw [scanning.painted, entries_shift, Nat.add_zero, ← scanning.plain] at shows
  exact ⟨c', returns, confined, shows⟩

theorem Scanning.typed_col (scanning : Scanning color data i start c t) (fits : Fits (t.col, i - start)) :
    (typed color data start (i - start) t).col = (t.col + (i - start)) % consoleWidth := by
  unfold typed
  rw [scanning.plain, TextScreen.pressAll_line_col (by rw [entries_length]; exact fits), entries_length]

/-- What a control character does to the column. -/
theorem press_col {key : Key Nat} (steers : ∀ a, key ≠ .print a) (t : Reference) {p : Nat × Nat}
    (place : t.col = (p.1 + p.2) % consoleWidth) :
    pendingStep p key = ((t.press 0 tabSize key).col, 0) := by
  cases key with
  | print a => exact absurd rfl (steers a)
  | newline => exact congrArg (·, 0) TextScreen.newline_col.symm
  | «return» => rfl
  | tab =>
      have inside := t.colInside
      refine congrArg (·, 0) ?_
      rw [← place]
      refine (TextScreen.moveTo_col ?_).symm
      unfold tabSize consoleWidth at *
      omega

/-- One byte. -/
theorem Scanning.step (scanning : Scanning color data i start c t) (fits : Fits (t.col, i - start)) :
    ∃ start' c' t', Scanning color data (i + 1) start' c' t' ∧
      (∀ left, writeScan data (left + 1) i start c = writeScan data left (i + 1) start' c') ∧
      pendingStep (t.col, i - start) (keyOf color (data i)) = (t'.col, i + 1 - start') ∧
      typed color data i 1 (typed color data start (i - start) t) = typed color data start' (i + 1 - start') t' := by
  have order := scanning.order
  by_cases print : ∃ a, keyOf color (data i) = .print a
  · obtain ⟨a, print⟩ := print
    have longer : i + 1 - start = i - start + 1 := by omega
    have here : start + (i - start) = i := by omega
    refine ⟨start, c, t, ⟨scanning.painted, scanning.waits, Nat.le_succ_of_le order, ?_⟩,
      fun left => writeScan_print print left start, ?_, ?_⟩
    · rw [longer, keys_append, entries_append, scanning.plain, List.map_append, keys_one, here, print, keyOf_print print]
      rfl
    · rw [print, longer]
      rfl
    · rw [longer, typed_add, here]
  · have steers : ∀ a, keyOf color (data i) ≠ .print a := fun a here => print ⟨a, here⟩
    obtain ⟨c', returns, confined, shows⟩ := scanning.flush fits
    obtain ⟨steered, waits⟩ := control_spec shows steers
    refine ⟨i + 1, _, _, ⟨(steered.color.trans confined.color).trans scanning.painted, waits, Nat.le_refl _, ?_⟩,
      fun left => ?_, ?_, ?_⟩
    · rw [Nat.sub_self]
      rfl
    · rw [writeScan_control steers, returns]
      rfl
    · rw [Nat.sub_self]
      exact press_col steers _ (scanning.typed_col fits)
    · rw [Nat.sub_self]
      rfl

/-- The bytes up to the last chunk. -/
theorem Scanning.run (left : Nat) : ∀ {i start : Nat} {c : Console} {t : Reference},
    Scanning color data i start c t → (∀ m < left, Fits (pending (t.col, i - start) (keys color data i m))) →
      ∃ start' c' t', Scanning color data (i + left) start' c' t' ∧
        writeScan data left i start c = writeScan data 0 (i + left) start' c' ∧
        pending (t.col, i - start) (keys color data i left) = (t'.col, i + left - start') ∧
        typed color data i left (typed color data start (i - start) t) =
          typed color data start' (i + left - start') t' := by
  induction left with
  | zero => exact fun {i start c t} scanning _ => ⟨start, c, t, scanning, rfl, rfl, rfl⟩
  | succ left ih =>
      intro i start c t scanning fits
      obtain ⟨start₁, c₁, t₁, scanning₁, scan, place, screen⟩ := scanning.step (fits 0 (Nat.succ_pos left))
      have split : ∀ m, keys color data i (m + 1) = keyOf color (data i) :: keys color data (i + 1) m := by
        intro m
        rw [Nat.add_comm m 1, keys_append]
        rfl
      have next : ∀ m, pending (t.col, i - start) (keys color data i (m + 1)) =
          pending (t₁.col, i + 1 - start₁) (keys color data (i + 1) m) := by
        intro m
        rw [split, ← place]
        rfl
      obtain ⟨start', c', t', scanning', scan', place', screen'⟩ := ih scanning₁ fun m early => by
        rw [← next]
        exact fits (m + 1) (Nat.succ_lt_succ early)
      rw [show i + (left + 1) = i + 1 + left by omega]
      refine ⟨start', c', t', scanning', (scan left).trans scan', (next left).trans place', ?_⟩
      rw [Nat.add_comm left 1, typed_add, screen]
      exact screen'

end Scans

section Writes

variable {color : UInt8} {data : Nat → UInt8} {c : Console} {t : Reference}

theorem Shows.scanning (shows : Shows c t) (data : Nat → UInt8) : Scanning c.terminalColor data 0 0 c t :=
  ⟨rfl, shows.waits, Nat.le_refl 0, rfl⟩

theorem consoleWrite_eq (shows : Shows c t) (n : Nat) : consoleWrite (some data) n c = writeScan data n 0 0 c := by
  by_cases empty : n = 0
  · subst empty
    have inside : c.terminalColumn < consoleWidth := shows.col ▸ t.colInside
    have none : charsToWrite 0 c = 0 := by
      rw [charsToWrite_eq (Nat.le_of_lt inside) (by decide), Nat.min_zero]
    have round := writeRound_none (fun j => data (0 + j)) none (Nat.le_of_lt inside)
    rw [settle_inside inside] at round
    have scan : writeScan data 0 0 0 c = some (writeRound (fun j => data (0 + j)) 0 0 c) := by
      unfold writeScan terminalWritesequence writeLoop
      dsimp only
      rw [none]
      rfl
    exact (congrArg some round.symm).trans scan.symm
  · exact if_neg empty

/-- Every write returns. -/
theorem consoleWrite_returns (data : Nat → UInt8) (shows : Shows c t) {n : Nat} (bound : n < 2 ^ 31) :
    ∃ c' t', consoleWrite (some data) n c = some c' ∧ Confined c c' ∧ Shows c' t' := by
  rw [consoleWrite_eq shows]
  exact writeScan_returns n 0 shows.waits (by omega)

/-- Chunks that fit are shown as the terminal shows them. -/
theorem consoleWrite_fits (shows : Shows c t) {n : Nat}
    (fits : ∀ m ≤ n, Fits (pending (t.col, 0) (keys c.terminalColor data 0 m))) :
    ∃ c', consoleWrite (some data) n c = some c' ∧ c'.terminalColor = c.terminalColor ∧
      Shows c' (typed c.terminalColor data 0 n t) ∧
      c'.terminalColumn = ((pending (t.col, 0) (keys c.terminalColor data 0 n)).1 +
        (pending (t.col, 0) (keys c.terminalColor data 0 n)).2) % consoleWidth := by
  obtain ⟨start, c₁, t₁, scanning, scan, place, screen⟩ :=
    (shows.scanning data).run n fun m early => fits m (Nat.le_of_lt early)
  rw [Nat.zero_add] at scanning scan place screen
  have last : Fits (t₁.col, n - start) := place ▸ fits n (Nat.le_refl n)
  obtain ⟨c', returns, confined, shown⟩ := scanning.flush last
  refine ⟨c', ?_, confined.color.trans scanning.painted, ?_, ?_⟩
  · rw [consoleWrite_eq shows, scan]
    exact returns
  · rw [← screen] at shown
    exact shown
  · rw [shown.col, scanning.typed_col last]
    exact congrArg (fun p : Nat × Nat => (p.1 + p.2) % consoleWidth) place.symm

theorem pendingStep_le {p : Nat × Nat} (fits : Fits p) (key : Key Nat) :
    (pendingStep p key).1 + (pendingStep p key).2 ≤ consoleWidth + 1 := by
  cases key with
  | print a => exact Nat.succ_le_succ fits
  | newline => exact Nat.zero_le _
  | «return» => exact Nat.zero_le _
  | tab =>
      have inside := Nat.mod_lt (((p.1 + p.2) % consoleWidth / tabSize + 1) * tabSize) (show 0 < consoleWidth by decide)
      exact Nat.le_succ_of_le (Nat.le_of_lt inside)

/-- The first character too many moves the cursor to another place. -/
theorem consoleWrite_overfull (shows : Shows c t) {n : Nat}
    (fits : ∀ m < n, Fits (pending (t.col, 0) (keys c.terminalColor data 0 m)))
    (overfull : ¬ Fits (pending (t.col, 0) (keys c.terminalColor data 0 n))) :
    ∀ c', consoleWrite (some data) n c = some c' → ¬ Shows c' (typed c.terminalColor data 0 n t) := by
  obtain ⟨start, c₁, t₁, scanning, scan, place, screen⟩ := (shows.scanning data).run n fits
  rw [Nat.zero_add] at scanning scan place screen
  have limit : t₁.col + (n - start) ≤ consoleWidth + 1 := by
    cases n with
    | zero =>
        refine absurd (Nat.le_of_lt t.colInside) overfull
    | succ n =>
        have step := pendingStep_le (fits n (Nat.lt_succ_self n)) (keyOf c.terminalColor (data (0 + n)))
        rw [← pending_succ, place] at step
        exact step
  rw [place] at overfull
  have more : ¬ t₁.col + (n - start) ≤ consoleWidth := overfull
  have start' := t₁.colInside
  obtain ⟨count, size⟩ : ∃ count, n - start = count + 1 := ⟨n - start - 1, by omega⟩
  have exactly : t₁.col + count = consoleWidth := by omega
  obtain ⟨c', returns, column⟩ :=
    terminalWritesequence_overfull (fun j => data (start + j)) scanning.waits exactly
  have after : (typed c.terminalColor data 0 n t).col = 1 := by
    have edge : (t₁.pressAll 0 tabSize ((entries c.terminalColor data start count).map .print)).col = 0 := by
      rw [TextScreen.pressAll_line_col (by rw [entries_length]; omega), entries_length, exactly, Nat.mod_self]
    refine (congrArg TextScreen.col screen).trans ?_
    unfold typed
    rw [scanning.plain, size, entries_append, List.map_append, TextScreen.pressAll_append,
      TextScreen.pressAll_line_col (by rw [edge, entries_length]; decide), edge, entries_length]
    rfl
  intro c'' wrote shown
  rw [consoleWrite_eq shows, scan] at wrote
  have same : c'' = c' := by
    refine Option.some.inj (wrote.symm.trans ?_)
    rw [← size] at returns
    exact returns
  exact column (same ▸ shown.col.trans after)

/-- A chunk that is taken up again where a write ended. -/
def Resumed (p q : Nat × Nat) : Prop := q.1 + q.2 = p.1 + p.2 ∨ p.1 + p.2 = consoleWidth ∧ q.1 + q.2 = 0

theorem Resumed.fits {p q : Nat × Nat} (resumed : Resumed p q) (fits : Fits p) : Fits q := by
  unfold Fits at *
  rcases resumed with same | ⟨-, fresh⟩ <;> omega

theorem Resumed.step {p q : Nat × Nat} (resumed : Resumed p q) {key : Key Nat} (fits : Fits (pendingStep p key)) :
    Resumed (pendingStep p key) (pendingStep q key) := by
  cases key with
  | print a =>
      refine Or.inl ?_
      have inside : p.1 + (p.2 + 1) ≤ consoleWidth := fits
      have same : q.1 + q.2 = p.1 + p.2 := resumed.resolve_right fun edge => by omega
      exact congrArg Nat.succ same
  | newline => exact Or.inl rfl
  | «return» => exact Or.inl rfl
  | tab =>
      refine Or.inl ?_
      have place : (q.1 + q.2) % consoleWidth = (p.1 + p.2) % consoleWidth := by
        rcases resumed with same | ⟨edge, fresh⟩
        · rw [same]
        · rw [edge, fresh, Nat.mod_self, Nat.zero_mod]
      unfold pendingStep
      rw [place]

theorem Resumed.run {p q : Nat × Nat} (resumed : Resumed p q) {i : Nat} (m : Nat)
    (fits : ∀ k ≤ m, Fits (pending p (keys color data i k))) :
    Resumed (pending p (keys color data i m)) (pending q (keys color data i m)) := by
  induction m with
  | zero => exact resumed
  | succ m ih =>
      have whole := fits (m + 1) (Nat.le_refl _)
      rw [pending_succ] at whole ⊢
      rw [pending_succ]
      exact (ih fun k early => fits k (Nat.le_succ_of_le early)).step whole

end Writes

/-- The terminal with the screen and the cursor of the console. -/
def Console.screen (c : Console) (row : c.terminalRow < consoleHeight) (col : c.terminalColumn < consoleWidth) :
    Reference := ⟨c.cell, c.terminalRow, c.terminalColumn, row, col⟩

theorem Console.shows_screen (c : Console) (row : c.terminalRow < consoleHeight)
    (col : c.terminalColumn < consoleWidth) : Shows c (c.screen row col) := ⟨⟨fun _ _ => rfl, rfl⟩, rfl⟩

/-- The first `n` bytes leave screen and cursor as the terminal has them. -/
def Agrees (c : Console) (t : Reference) (data : Nat → UInt8) (n : Nat) : Prop :=
  ∃ c', consoleWrite (some data) n c = some c' ∧ Shows c' (typed c.terminalColor data 0 n t)

/-- Two writes leave screen and cursor as one does. -/
def Composes (c : Console) (data : Nat → UInt8) (length n : Nat) : Prop :=
  ∃ first second whole, consoleWrite (some data) n c = some first ∧
    consoleWrite (some fun j => data (n + j)) (length - n) first = some second ∧
    consoleWrite (some data) length c = some whole ∧ ∃ t, Shows second t ∧ Shows whole t

/-- A write of chunks that fit can be cut anywhere. -/
theorem consoleWrite_composes {c : Console} {t : Reference} (shows : Shows c t) {data : Nat → UInt8} {length n : Nat}
    (inside : n ≤ length) (fits : ∀ m ≤ length, Fits (pending (t.col, 0) (keys c.terminalColor data 0 m))) :
    Composes c data length n := by
  obtain ⟨first, wrote, color, shown, column⟩ := consoleWrite_fits shows fun m early => fits m (early.trans inside)
  obtain ⟨whole, wroteAll, -, shownAll, -⟩ := consoleWrite_fits shows fits
  have resumed : Resumed (pending (t.col, 0) (keys c.terminalColor data 0 n)) (first.terminalColumn, 0) := by
    have upto : _ ≤ consoleWidth := fits n inside
    unfold Resumed
    rw [column]
    rcases Nat.lt_or_eq_of_le upto with less | edge
    · exact Or.inl (Nat.mod_eq_of_lt less)
    · exact Or.inr ⟨edge, (congrArg (· % consoleWidth) edge).trans (Nat.mod_self _)⟩
  have rest : ∀ m ≤ length - n, Fits (pending (pending (t.col, 0) (keys c.terminalColor data 0 n))
      (keys c.terminalColor data n m)) := by
    intro m early
    have whole := fits (n + m) (by omega)
    rw [keys_append, pending_append, Nat.zero_add] at whole
    exact whole
  obtain ⟨second, wroteRest, -, shownRest, -⟩ := consoleWrite_fits shown fun m early => by
    rw [color, keys_shift, Nat.add_zero, ← shown.col]
    exact (resumed.run m fun k less => rest k (less.trans early)).fits (rest m early)
  refine ⟨first, second, whole, wrote, wroteRest, wroteAll, _, ?_, shownAll⟩
  have cut : length = n + (length - n) := by omega
  rw [cut, typed_add, Nat.zero_add, ← color]
  unfold typed at shownRest ⊢
  rw [keys_shift, Nat.add_zero, ← color] at shownRest
  exact shownRest

/-- `console_write` against the terminal: it always returns and stays on the screen; screen and cursor agree after
every part of the text, and the text can be cut anywhere, exactly if no chunk goes beyond the edge of its line. -/
theorem consoleWrite_agrees_iff (c : Console) (row : c.terminalRow < consoleHeight)
    (col : c.terminalColumn < consoleWidth) (data : Nat → UInt8) {length : Nat} (bound : length < 2 ^ 31) :
    (∃ c', consoleWrite (some data) length c = some c' ∧
      (∃ cells, c'.written = cells ++ c.written ∧ ∀ i ∈ cells, i < consoleCells) ∧
      c'.terminalRow < consoleHeight ∧ c'.terminalColumn < consoleWidth) ∧
      ((∀ n ≤ length, Agrees c (c.screen row col) data n ∧ Composes c data length n) ↔
        ∀ n ≤ length, Fits (pending (c.terminalColumn, 0) (keys c.terminalColor data 0 n))) := by
  have shows := c.shows_screen row col
  refine ⟨?_, fun agrees n inside => ?_, fun fits n inside => ⟨?_, consoleWrite_composes shows inside fits⟩⟩
  · obtain ⟨c', t', returns, confined, shown⟩ := consoleWrite_returns data shows bound
    exact ⟨c', returns, confined.written, shown.row ▸ t'.rowInside, shown.col ▸ t'.colInside⟩
  · induction n using Nat.strong_induction_on with
    | h n ih =>
        by_contra overfull
        obtain ⟨⟨c', wrote, shown⟩, -⟩ := agrees n inside
        exact consoleWrite_overfull shows (fun m early => ih m early (Nat.le_of_lt early |>.trans inside)) overfull
          c' wrote shown
  · obtain ⟨c', wrote, -, shown, -⟩ := consoleWrite_fits shows fun m early => fits m (early.trans inside)
    exact ⟨c', wrote, shown⟩

/-- A console with a dark screen, the cursor in the last column of the first line. -/
def cornerConsole : Console := ⟨fun _ => 0, 0, 79, 15, []⟩

/-- The characters of a string, with zeros behind them. -/
def characters (text : String) : Nat → UInt8 := fun i => (literal text).getD i 0

theorem consoleWrite_agrees_sample :
    Agrees cornerConsole (cornerConsole.screen (by decide) (by decide)) (characters "a\tb\nc") 3 ∧
      Composes cornerConsole (characters "a\tb\nc") 5 3 :=
  (consoleWrite_agrees_iff cornerConsole (by decide) (by decide) (characters "a\tb\nc")
    (show 5 < 2 ^ 31 by decide)).2.mpr (by decide) 3 (by decide)

/-- The text `abc` from the last column: the second round writes three characters, the last of which does not belong
to the text, and the cursor is a column too far. -/
theorem wrapped_text_overruns :
    (consoleWrite (some (characters "abcX")) 3 cornerConsole).map (fun c => (c.terminalRow, c.terminalColumn, c.cell 82)) =
      some (1, 3, vgaEntry (charWord (byte 'X')) 15) ∧
    (let t := typed 15 (characters "abcX") 0 3 (cornerConsole.screen (by decide) (by decide));
      (t.row, t.col, t.cells 82) = (1, 2, 0)) := by
  decide +kernel

end BubackOS.Modules
