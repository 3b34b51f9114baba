/-
Positions in a text.

A position is a line, counted from 1, and a column, counted from 0 in runes.
`Position.after` moves a position over a stretch of text; its laws say what line
and column are in terms of the stretch alone.

* **`Position.line_after`** — the line counts newlines;
* **`column_after`** — the column is the length of what is after the last of them.
-/
import SourceNotes.Text.Blank

namespace SourceNotes

/-- A place in a text. -/
structure Position where
  line : Nat := 1
  column : Nat := 0
  deriving DecidableEq, Repr

namespace Position

/-- The position after the rune `c`. -/
def next (p : Position) (c : Char) : Position :=
  if c = '\n' then { line := p.line + 1, column := 0 } else { p with column := p.column + 1 }

/-- The position after the text `s`. -/
def after (p : Position) (s : Text) : Position := s.foldl next p

@[simp] theorem after_nil (p : Position) : p.after [] = p := rfl

@[simp] theorem after_cons (p : Position) (c : Char) (s : Text) :
    p.after (c :: s) = (p.next c).after s := rfl

theorem after_append (p : Position) (s t : Text) : p.after (s ++ t) = (p.after s).after t :=
  List.foldl_append

/-- The line goes up by one at each newline. -/
theorem line_after (p : Position) (s : Text) : (p.after s).line = p.line + s.count '\n' := by
  induction s generalizing p with
  | nil => rfl
  | cons c s ih =>
    rw [after_cons, ih, next]
    by_cases hc : c = '\n'
    · simp [hc]; omega
    · simp [hc]

end Position

open Text

/-- What is after the last newline of a text. -/
def Text.lastLine (s : Text) : Text := (s.reverse.takeWhile (· ≠ '\n')).reverse

@[simp] theorem Text.lastLine_nil : lastLine [] = [] := rfl

theorem Text.lastLine_concat (s : Text) (c : Char) :
    lastLine (s ++ [c]) = if c = '\n' then [] else lastLine s ++ [c] := by
  by_cases hc : c = '\n' <;> simp [lastLine, hc]

/-- Induction on a text from its end. -/
theorem Text.concatInduction {motive : Text → Prop} (nil : motive [])
    (concat : ∀ s c, motive s → motive (s ++ [c])) (s : Text) : motive s := by
  have hrev (t : Text) : motive t.reverse := by
    induction t with
    | nil => exact nil
    | cons c t ih => rw [List.reverse_cons]; exact concat _ c ih
  rw [← List.reverse_reverse s]
  exact hrev _

/-- The column is the length of the last line. -/
theorem column_after (s : Text) : (Position.after {} s).column = (lastLine s).length := by
  induction s using concatInduction with
  | nil => rfl
  | concat s c ih =>
    rw [Position.after_append, lastLine_concat, Position.after_cons, Position.after_nil,
      Position.next]
    split
    · rfl
    · rw [List.length_append, ← ih]
      rfl

end SourceNotes
