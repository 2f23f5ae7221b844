import Mathlib.Logic.Function.Basic
import Mathlib.Data.List.Basic

/-!
# Text screens

A screen of cells with a cursor that is always inside it, and what single keys do.  A
character goes to the cell of the cursor, which moves on; at the right edge it goes to the
next line, and below the last line the screen moves up.
-/

namespace BubackOS.Library

/-- The cells, row by row, and the cursor. -/
@[ext] structure TextScreen (α : Type) (width height : Nat) where
  cells : Nat → α
  row : Nat
  col : Nat
  rowInside : row < height
  colInside : col < width

/-- A character, the end of a line, the return to its beginning, and the move to the next stop. -/
inductive Key (α : Type) where
  | print (a : α)
  | newline
  | return
  | tab

namespace TextScreen

variable {α : Type} {width height : Nat}

/-- The cells one line up, with blanks in the last line. -/
def scrolled (blank : α) (width height : Nat) (cells : Nat → α) : Nat → α := fun i =>
  if i < (height - 1) * width then cells (i + width) else if i < height * width then blank else cells i

/-- Characters in the cells from `start` on. -/
def overlay (cells : Nat → α) (start : Nat) (text : List α) : Nat → α := fun i =>
  if start ≤ i then text[i - start]?.getD (cells i) else cells i

theorem overlay_nil (cells : Nat → α) (start : Nat) : overlay cells start [] = cells := by
  funext i
  simp [overlay]

theorem overlay_cons (cells : Nat → α) (start : Nat) (a : α) (text : List α) :
    overlay (Function.update cells start a) (start + 1) text = overlay cells start (a :: text) := by
  funext i
  unfold overlay
  by_cases here : i = start
  · rw [here, if_neg (Nat.not_succ_le_self start), if_pos (Nat.le_refl start), Function.update_self, Nat.sub_self]
    rfl
  · by_cases behind : start + 1 ≤ i
    · obtain ⟨j, rfl⟩ : ∃ j, i = start + 1 + j := ⟨i - (start + 1), by omega⟩
      rw [if_pos behind, if_pos (by omega), show start + 1 + j - (start + 1) = j by omega,
        show start + 1 + j - start = j + 1 by omega, Function.update_of_ne here, List.getElem?_cons_succ]
    · rw [if_neg behind, if_neg (by omega), Function.update_of_ne here]

section Keys

variable (blank : α) (tabSize : Nat) (s : TextScreen α width height)

def newline : TextScreen α width height :=
  if inside : s.row + 1 < height then
    { s with row := s.row + 1, col := 0, rowInside := inside, colInside := Nat.zero_lt_of_lt s.colInside }
  else
    { s with
      cells := scrolled blank width height s.cells
      col := 0
      colInside := Nat.zero_lt_of_lt s.colInside }

/-- The cursor at a column of the line, or at the beginning of the next one. -/
def moveTo (col : Nat) : TextScreen α width height :=
  if inside : col < width then { s with col := col, colInside := inside } else s.newline blank

def setCells (cells : Nat → α) : TextScreen α width height := { s with cells := cells }

def press : Key α → TextScreen α width height
  | .print a => (s.setCells (Function.update s.cells (s.row * width + s.col) a)).moveTo blank (s.col + 1)
  | .newline => s.newline blank
  | .return => { s with col := 0, colInside := Nat.zero_lt_of_lt s.colInside }
  | .tab => s.moveTo blank ((s.col / tabSize + 1) * tabSize)

def pressAll (keys : List (Key α)) : TextScreen α width height := keys.foldl (fun s key => s.press blank tabSize key) s

end Keys

section Laws

variable {blank : α} {tabSize : Nat} {s : TextScreen α width height}

theorem pressAll_append (first second : List (Key α)) :
    s.pressAll blank tabSize (first ++ second) = (s.pressAll blank tabSize first).pressAll blank tabSize second :=
  List.foldl_append

theorem moveTo_here : s.moveTo blank s.col = s := dif_pos s.colInside

theorem newline_col : (s.newline blank).col = 0 := by
  unfold newline
  split <;> rfl

theorem moveTo_col {col : Nat} (edge : col ≤ width) : (s.moveTo blank col).col = col % width := by
  unfold moveTo
  split
  · exact (Nat.mod_eq_of_lt ‹_›).symm
  · rw [newline_col, show col = width by omega, Nat.mod_self]

/-- Characters that end on their line, at its edge at the latest. -/
theorem pressAll_line (text : List α) : ∀ {s : TextScreen α width height}, s.col + text.length ≤ width →
    s.pressAll blank tabSize (text.map .print) =
      (s.setCells (overlay s.cells (s.row * width + s.col) text)).moveTo blank (s.col + text.length) := by
  induction text with
  | nil =>
      intro s _
      rw [overlay_nil]
      exact moveTo_here.symm
  | cons a text ih =>
      intro s fits
      rw [List.length_cons] at fits ⊢
      rw [← overlay_cons]
      by_cases edge : s.col + 1 < width
      · have next : s.press blank tabSize (.print a) =
            { s with
              cells := Function.update s.cells (s.row * width + s.col) a
              col := s.col + 1
              colInside := edge } := dif_pos edge
        have rest := ih (s := s.press blank tabSize (.print a)) (by rw [next]; dsimp only; omega)
        refine rest.trans ?_
        rw [next, show s.col + (text.length + 1) = s.col + 1 + text.length by omega]
        rfl
      · obtain rfl : text = [] := List.eq_nil_of_length_eq_zero (by omega)
        rw [overlay_nil]
        rfl

theorem pressAll_line_col {text : List α} (fits : s.col + text.length ≤ width) :
    (s.pressAll blank tabSize (text.map .print)).col = (s.col + text.length) % width := by
  rw [pressAll_line text fits]
  exact moveTo_col fits

end Laws

end TextScreen
end BubackOS.Library
