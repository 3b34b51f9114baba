/-
Blank characters and trimming.

A text is a list of characters, so that lengths, columns and limits count code
points. This module fixes which characters are *blank* and gives the trimming
functions that the rest of the library uses:

* **`isBlank`** — the blank characters, with the line separators among them;
* **`trimStart`**, **`trimEnd`**, **`trim`** — a text without the blanks at one
  or both of its ends.
-/

namespace SourceNotes

/-- A text: its code points in order. -/
abbrev Text := List Char

namespace Text

/-- The code points of blank characters: spaces and separators of lines and fields,
in ASCII and beyond. -/
def isBlankCode (n : Nat) : Bool :=
  (0x09 ≤ n && n ≤ 0x0D) || (0x1C ≤ n && n ≤ 0x20) || n == 0x85 || n == 0xA0 ||
    n == 0x1680 || (0x2000 ≤ n && n ≤ 0x200A) || n == 0x2028 || n == 0x2029 ||
    n == 0x202F || n == 0x205F || n == 0x3000

/-- The blank characters. -/
def isBlank (c : Char) : Bool := isBlankCode c.toNat

/-- What Lean's own (ASCII) class calls white space is blank here. -/
theorem isBlank_of_isWhitespace {c : Char} (h : c.isWhitespace = true) : isBlank c = true := by
  simp only [Char.isWhitespace, Bool.or_eq_true, decide_eq_true_eq] at h
  rcases h with ((h | h) | h) | h <;> subst h <;> decide

/-- A list without its longest end of members in `p`. -/
def dropEndWhile {α : Type} (p : α → Bool) (s : List α) : List α :=
  (s.reverse.dropWhile p).reverse

/-- A text without the blanks at its start. -/
def trimStart (s : Text) : Text := s.dropWhile isBlank

/-- A text without the blanks at its end. -/
def trimEnd (s : Text) : Text := dropEndWhile isBlank s

/-- A text without the blanks at both ends. -/
def trim (s : Text) : Text := trimEnd (trimStart s)

/-- Whether a text holds nothing but blanks. -/
def allBlank (s : Text) : Bool := s.all isBlank

end Text

end SourceNotes
