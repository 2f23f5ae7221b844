import BubackOS.Libc.Rendering
import BubackOS.Libc.Strings
import BubackOS.Library.TextScreen

/-!
# The console module

`modules/console/console.c`.  The screen is a part of memory, two bytes a cell.  Text between
control characters is written line by line; the indices of the cells that are written are
noted, the last one first.
-/

namespace BubackOS.Modules

open Library Libc

/-! ## The functions -/

/-- `console_buffer`. -/
def consoleBuffer : Nat := 0xb8000

/-- `console__width` and `console__height`. -/
def consoleWidth : Nat := 80

def consoleHeight : Nat := 24

/-- `TAB_SIZE`. -/
def tabSize : Nat := 4

/-- `vga_entry`. -/
def vgaEntry (uc color : Nat) : Nat := (uc ||| color <<< 8) % 2 ^ 16

/-- A `char`, which is signed, as the parameter `uint16_t uc`. -/
def charWord (c : UInt8) : Nat := if c.toNat < 128 then c.toNat else 0xff00 + c.toNat

/-- The memory with the screen, the static variables, and the cells written. -/
structure Console where
  mem : Memory
  terminalRow : Nat
  terminalColumn : Nat
  terminalColor : UInt8
  written : List Nat

/-- A cell of the screen. -/
def Console.cell (c : Console) (index : Nat) : Nat := c.mem.load (consoleBuffer + 2 * index) 2

/-- `console_buffer[index] = entry`. -/
def storeCell (index entry : Nat) (c : Console) : Console :=
  { c with
    mem := (c.mem.storeByte (consoleBuffer + 2 * index) (UInt8.ofNat entry)).storeByte (consoleBuffer + 2 * index + 1)
      (UInt8.ofNat (entry / 256))
    written := index :: c.written }

/-- Stores to cells, one after the other. -/
def storeCells (stores : List (Nat × Nat)) (c : Console) : Console :=
  stores.foldl (fun c store => storeCell store.1 store.2 c) c

/-- `__console_clear`. -/
def consoleClear (rowStart colStart rowEnd colEnd : Nat) (c : Console) : Console :=
  storeCells ((List.range' rowStart (rowEnd - rowStart)).flatMap fun y =>
    (List.range' colStart (colEnd - colStart)).map fun x => (y * consoleWidth + x, vgaEntry 0 0)) c

/-- `console_raw_write`; `sequence` gives the characters from the pointer on. -/
def consoleRawWrite (sequence : Nat → UInt8) (length : Nat) (color : UInt8) (row col : Nat) (c : Console) : Console :=
  storeCells ((List.range length).map fun i =>
    (row * consoleWidth + col + i, vgaEntry (charWord (sequence i)) color.toNat)) c

/-- `console_scroll_up`. -/
def consoleScrollUp (rows : Nat) (c : Console) : Console :=
  let numberOfLines := consoleHeight - rows
  consoleClear (consoleHeight - rows) 0 consoleHeight consoleWidth
    { c with
      mem := memcpy c.mem consoleBuffer (consoleBuffer + 2 * (rows * consoleWidth)) (numberOfLines * consoleWidth * 2)
      written := List.range (numberOfLines * consoleWidth) ++ c.written }

/-- `need_scroll`. -/
def needScroll (c : Console) : Console :=
  if c.terminalRow ≥ consoleHeight then { consoleScrollUp 1 c with terminalRow := consoleHeight - 1 } else c

/-- `newline`. -/
def newline (c : Console) : Console :=
  needScroll { c with terminalColumn := 0, terminalRow := wrap (c.terminalRow + 1) }

/-- The characters of one round of `terminal_writesequence`: `min` compares two `int`, and `length` is the length of
the whole sequence in every round. -/
def charsToWrite (length : Nat) (c : Console) : Nat :=
  (min (asInt (wrapSub consoleWidth c.terminalColumn)) (asInt length) % 2 ^ 64).toNat

/-- The end of a round: at the right edge the cursor goes to the next line. -/
def settle (c : Console) : Console := if c.terminalColumn ≥ consoleWidth then newline c else c

/-- One round of `terminal_writesequence`. -/
def writeRound (sequence : Nat → UInt8) (length written : Nat) (c : Console) : Console :=
  let raw := consoleRawWrite (fun i => sequence (written + i)) (charsToWrite length c) c.terminalColor c.terminalRow
    c.terminalColumn c
  settle { raw with terminalColumn := wrap (c.terminalColumn + charsToWrite length c) }

/-- The loop of `terminal_writesequence`. -/
def writeLoop (sequence : Nat → UInt8) (length : Nat) : Nat → Nat → Console → Option Console
  | 0, _, _ => none
  | rounds + 1, written, c =>
      let next := wrap (written + charsToWrite length c)
      if next < length then writeLoop sequence length rounds next (writeRound sequence length written c)
      else some (writeRound sequence length written c)

/-- `terminal_writesequence`: every round but a first one at the edge writes a character. -/
def terminalWritesequence (sequence : Nat → UInt8) (length : Nat) (c : Console) : Option Console :=
  writeLoop sequence length (length + 2) 0 c

/-- The loop of `console_write` from `i` on, with the last call behind it; `buffer_start` is `data + start`. -/
def writeScan (data : Nat → UInt8) : Nat → Nat → Nat → Console → Option Console
  | 0, i, start, c => terminalWritesequence (fun j => data (start + j)) (i - start) c
  | left + 1, i, start, c =>
      if data i = byte '\n' then
        (terminalWritesequence (fun j => data (start + j)) (i - start) c).bind fun c =>
          writeScan data left (i + 1) (i + 1) (newline c)
      else if data i = byte '\r' then
        (terminalWritesequence (fun j => data (start + j)) (i - start) c).bind fun c =>
          writeScan data left (i + 1) (i + 1) { c with terminalColumn := 0 }
      else if data i = byte '\t' then
        (terminalWritesequence (fun j => data (start + j)) (i - start) c).bind fun c =>
          writeScan data left (i + 1) (i + 1) { c with terminalColumn := (c.terminalColumn / tabSize + 1) * tabSize }
      else writeScan data left (i + 1) start c

/-- `console_write`; no data is the null pointer. -/
def consoleWrite (data : Option (Nat → UInt8)) (dataLength : Nat) (c : Console) : Option Console :=
  match data with
  | none => some c
  | some data => if dataLength = 0 then some c else writeScan data dataLength 0 0 c

/-! ## Cells -/

section Cells

variable {c : Console}

theorem load_two (m : Memory) (a : Nat) : m.load a 2 = (m a).toNat + 256 * (m (a + 1)).toNat := by
  simp [Memory.load]

theorem storeCell_cell {entry : Nat} (small : entry < 2 ^ 16) (index j : Nat) (c : Console) :
    (storeCell index entry c).cell j = if j = index then entry else c.cell j := by
  unfold Console.cell storeCell
  dsimp only
  rw [load_two, load_two]
  unfold Memory.storeByte
  by_cases here : j = index
  · rw [if_pos here, here, if_neg (by omega), if_pos rfl, if_pos rfl]
    simp only [UInt8.toNat_ofNat']
    omega
  · rw [if_neg here, if_neg (by omega), if_neg (by omega), if_neg (by omega), if_neg (by omega)]

/-- What stores leave alone, and the cells they note. -/
theorem storeCells_spec (stores : List (Nat × Nat)) : ∀ c : Console,
    (storeCells stores c).terminalRow = c.terminalRow ∧ (storeCells stores c).terminalColumn = c.terminalColumn ∧
      (storeCells stores c).terminalColor = c.terminalColor ∧
      (storeCells stores c).written = (stores.map Prod.fst).reverse ++ c.written := by
  induction stores with
  | nil => exact fun c => ⟨rfl, rfl, rfl, rfl⟩
  | cons store rest ih =>
      intro c
      obtain ⟨row, column, color, noted⟩ := ih (storeCell store.1 store.2 c)
      refine ⟨row, column, color, noted.trans ?_⟩
      rw [List.map_cons, List.reverse_cons, List.append_assoc]
      rfl

/-- Stores whose values depend on the cell only. -/
theorem storeCells_cell (entry : Nat → Nat) (small : ∀ i, entry i < 2 ^ 16) (stores : List (Nat × Nat)) :
    (∀ store ∈ stores, store.2 = entry store.1) → ∀ (c : Console) (j : Nat),
      (storeCells stores c).cell j = if j ∈ stores.map Prod.fst then entry j else c.cell j := by
  induction stores with
  | nil => exact fun _ c j => (if_neg List.not_mem_nil).symm
  | cons store rest ih =>
      intro values c j
      have later := ih (fun other member => values other (List.mem_cons_of_mem _ member)) (storeCell store.1 store.2 c) j
      have value := values store List.mem_cons_self
      refine later.trans ?_
      rw [storeCell_cell (by rw [value]; exact small _), List.map_cons]
      by_cases rest' : j ∈ rest.map Prod.fst
      · rw [if_pos rest', if_pos (List.mem_cons_of_mem _ rest')]
      · rw [if_neg rest']
        by_cases here : j = store.1
        · rw [if_pos here, if_pos (here ▸ List.mem_cons_self), value, here]
        · rw [if_neg here, if_neg (fun member => (List.mem_cons.mp member).elim here rest')]

theorem vgaEntry_lt (uc color : Nat) : vgaEntry uc color < 2 ^ 16 := Nat.mod_lt _ (by decide)

end Cells

/-! ## The screen -/

/-- The number of cells. -/
def consoleCells : Nat := consoleHeight * consoleWidth

/-- A terminal of the size of the screen. -/
abbrev Reference : Type := TextScreen Nat consoleWidth consoleHeight

/-- The cells and the row are those of the terminal. -/
structure Displays (c : Console) (s : Reference) : Prop where
  cells : ∀ i < consoleCells, c.cell i = s.cells i
  row : c.terminalRow = s.row

/-- Screen and cursor are those of the terminal. -/
structure Shows (c : Console) (s : Reference) : Prop extends Displays c s where
  col : c.terminalColumn = s.col

/-- Only cells of the screen are written between two states, and the colour stays. -/
structure Confined (c c' : Console) : Prop where
  written : ∃ cells, c'.written = cells ++ c.written ∧ ∀ i ∈ cells, i < consoleCells
  color : c'.terminalColor = c.terminalColor

/-- The cursor may move. -/
theorem Confined.of_eq {c c' : Console} (written : c'.written = c.written) (color : c'.terminalColor = c.terminalColor) :
    Confined c c' := ⟨⟨[], written, fun _ member => absurd member List.not_mem_nil⟩, color⟩

theorem Confined.trans {c c' c'' : Console} (first : Confined c c') (second : Confined c' c'') : Confined c c'' := by
  obtain ⟨⟨before, noted, inside⟩, color⟩ := first
  obtain ⟨⟨after, noted', inside'⟩, color'⟩ := second
  refine ⟨⟨after ++ before, by rw [noted', noted, List.append_assoc], fun i member => ?_⟩, color'.trans color⟩
  exact (List.mem_append.mp member).elim (inside' i) (inside i)

section Lines

variable {c : Console} {s : Reference}

/-- The stores that clear the last line. -/
def lastLine : List (Nat × Nat) :=
  (List.range' (consoleHeight - 1) (consoleHeight - (consoleHeight - 1))).flatMap fun y =>
    (List.range' 0 (consoleWidth - 0)).map fun x => (y * consoleWidth + x, vgaEntry 0 0)

theorem lastLine_eq :
    lastLine = (List.range' 0 consoleWidth).map fun x => ((consoleHeight - 1) * consoleWidth + x, 0) := by decide

theorem mem_lastLine (j : Nat) :
    j ∈ lastLine.map Prod.fst ↔ (consoleHeight - 1) * consoleWidth ≤ j ∧ j < consoleCells := by
  rw [lastLine_eq, List.map_map, List.mem_map]
  refine ⟨?_, fun ⟨low, high⟩ => ⟨j - (consoleHeight - 1) * consoleWidth, List.mem_range'_1.mpr ⟨Nat.zero_le _, ?_⟩,
    Nat.add_sub_cancel' low⟩⟩
  · rintro ⟨x, inside, rfl⟩
    have small : x < consoleWidth := (List.mem_range'_1.mp inside).2.trans_eq (Nat.zero_add _)
    exact ⟨Nat.le_add_right _ x, Nat.add_lt_add_left small _⟩
  · unfold consoleCells consoleHeight consoleWidth at *
    omega

/-- The copy moves every line up. -/
theorem memcpy_cell (m : Memory) {j : Nat} (inside : j < (consoleHeight - 1) * consoleWidth) :
    (memcpy m consoleBuffer (consoleBuffer + 2 * (1 * consoleWidth))
      ((consoleHeight - 1) * consoleWidth * 2)).load (consoleBuffer + 2 * j) 2 =
      m.load (consoleBuffer + 2 * (j + consoleWidth)) 2 := by
  have bound : consoleBuffer + 2 * (1 * consoleWidth) + (consoleHeight - 1) * consoleWidth * 2 < 2 ^ 64 := by decide
  have low : consoleBuffer + 2 * (1 * consoleWidth) + (consoleBuffer + 2 * j - consoleBuffer) =
      consoleBuffer + 2 * (j + consoleWidth) := by omega
  have high : consoleBuffer + 2 * (1 * consoleWidth) + (consoleBuffer + 2 * j + 1 - consoleBuffer) =
      consoleBuffer + 2 * (j + consoleWidth) + 1 := by omega
  rw [memcpy_eq _ (Nat.le_add_right _ _) bound, load_two, load_two]
  unfold Memory.copy
  rw [if_pos (by omega), if_pos (by omega), low, high]

/-- Scrolling by one line. -/
theorem consoleScrollUp_spec (c : Console) :
    Confined c (consoleScrollUp 1 c) ∧ (consoleScrollUp 1 c).terminalRow = c.terminalRow ∧
      (consoleScrollUp 1 c).terminalColumn = c.terminalColumn ∧
      ∀ j < consoleCells, (consoleScrollUp 1 c).cell j =
        if j < (consoleHeight - 1) * consoleWidth then c.cell (j + consoleWidth) else 0 := by
  have cleared : consoleScrollUp 1 c = storeCells lastLine
      { c with
        mem := memcpy c.mem consoleBuffer (consoleBuffer + 2 * (1 * consoleWidth))
          ((consoleHeight - 1) * consoleWidth * 2)
        written := List.range ((consoleHeight - 1) * consoleWidth) ++ c.written } := rfl
  obtain ⟨row, column, color, noted⟩ := storeCells_spec lastLine
    { c with
      mem := memcpy c.mem consoleBuffer (consoleBuffer + 2 * (1 * consoleWidth)) ((consoleHeight - 1) * consoleWidth * 2)
      written := List.range ((consoleHeight - 1) * consoleWidth) ++ c.written }
  rw [cleared]
  refine ⟨⟨⟨_, noted.trans (List.append_assoc _ _ _).symm, fun i member => ?_⟩, color⟩, row, column, fun j inside => ?_⟩
  · rcases List.mem_append.mp member with cleared | copied
    · exact ((mem_lastLine i).mp (List.mem_reverse.mp cleared)).2
    · exact Nat.lt_of_lt_of_le (List.mem_range.mp copied) (by decide)
  · have zeros : ∀ store ∈ lastLine, store.2 = Function.const Nat 0 store.1 := by
      rw [lastLine_eq]
      intro store member
      obtain ⟨x, -, rfl⟩ := List.mem_map.mp member
      rfl
    rw [storeCells_cell (Function.const Nat 0) (fun _ => Nat.two_pow_pos 16) lastLine zeros]
    by_cases upper : j < (consoleHeight - 1) * consoleWidth
    · rw [if_neg (fun member => absurd ((mem_lastLine j).mp member).1 (Nat.not_le_of_lt upper)), if_pos upper]
      unfold Console.cell
      dsimp only
      rw [memcpy_cell c.mem upper]
    · rw [if_pos ((mem_lastLine j).mpr ⟨Nat.le_of_not_lt upper, inside⟩), if_neg upper]
      rfl

/-- The next line. -/
theorem newline_spec (displays : Displays c s) :
    Confined c (newline c) ∧ Shows (newline c) (s.newline 0) := by
  have inside := s.rowInside
  have row : wrap (c.terminalRow + 1) = s.row + 1 := by
    rw [displays.row]
    exact wrap_of_lt (by unfold consoleHeight at inside; omega)
  unfold newline needScroll
  rw [row]
  by_cases last : s.row + 1 < consoleHeight
  · rw [if_neg (Nat.not_le_of_lt last)]
    have next : s.newline 0 =
        { s with row := s.row + 1, col := 0, rowInside := last, colInside := Nat.zero_lt_of_lt s.colInside } :=
      dif_pos last
    rw [next]
    exact ⟨Confined.of_eq rfl rfl, ⟨displays.cells, rfl⟩, rfl⟩
  · rw [if_pos (Nat.le_of_not_lt last)]
    have next : s.newline 0 =
        { s with
          cells := TextScreen.scrolled 0 consoleWidth consoleHeight s.cells
          col := 0
          colInside := Nat.zero_lt_of_lt s.colInside } := dif_neg last
    rw [next]
    obtain ⟨confined, -, column, cells⟩ :=
      consoleScrollUp_spec { c with terminalColumn := 0, terminalRow := s.row + 1 }
    refine ⟨⟨confined.written, confined.color⟩, ⟨fun i member => ?_, ?_⟩, column⟩
    · refine (cells i member).trans ?_
      unfold TextScreen.scrolled
      dsimp only
      by_cases upper : i < (consoleHeight - 1) * consoleWidth
      · rw [if_pos upper, if_pos upper]
        refine displays.cells (i + consoleWidth) ?_
        unfold consoleCells consoleHeight consoleWidth at *
        omega
      · rw [if_neg upper, if_neg upper]
        exact (if_pos member).symm
    · dsimp only
      omega

/-- The end of a round in terms of the terminal. -/
theorem settle_spec (displays : Displays c s) :
    Confined c (settle c) ∧ Shows (settle c) (s.moveTo 0 c.terminalColumn) := by
  unfold settle TextScreen.moveTo
  by_cases inside : c.terminalColumn < consoleWidth
  · rw [if_neg (Nat.not_le_of_lt inside), dif_pos inside]
    exact ⟨Confined.of_eq rfl rfl, ⟨displays.cells, displays.row⟩, rfl⟩
  · rw [if_pos (Nat.le_of_not_lt inside), dif_neg inside]
    exact newline_spec displays

theorem settle_inside (inside : c.terminalColumn < consoleWidth) : settle c = c := if_neg (Nat.not_le_of_lt inside)

end Lines

end BubackOS.Modules
