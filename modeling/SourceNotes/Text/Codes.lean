/-
Texts with codes that are no characters.

A text that is written with escapes can hold any code point, halves of pairs among
them, which no character has. Such a text is the list of its codes.

* **`Codes.ofText`**, **`Codes.text?`** — from texts to codes and back, where that
  can be (`text?_ofText`);
* **`Codes.commaList`** — the pieces between commas.
-/
import SourceNotes.Text.Pieces

namespace SourceNotes

/-- The code points of a text, which need not be characters. -/
abbrev Codes := List Nat

namespace Codes

/-- The codes of a text. -/
def ofText (s : Text) : Codes := s.map Char.toNat

/-- The codes of a string. -/
def ofString (s : String) : Codes := ofText s.toList

/-- Whether a code is that of a character. -/
def isCharacter (n : Nat) : Bool := n < 0xD800 || (0xDFFF < n && n < 0x110000)

/-- The text with these codes, if all of them are characters. -/
def text? (c : Codes) : Option Text :=
  if c.all isCharacter then some (c.map Char.ofNat) else none

theorem isCharacter_toNat (c : Char) : isCharacter c.toNat = true := by
  have h := c.valid
  simp only [UInt32.isValidChar, Nat.isValidChar] at h
  simp only [isCharacter, Char.toNat, Bool.or_eq_true, Bool.and_eq_true, decide_eq_true_eq]
  omega

/-- The codes of a text are those of that text only. -/
theorem text?_ofText (s : Text) : text? (ofText s) = some s := by
  have h : (ofText s).all isCharacter = true := by
    simp [ofText, isCharacter_toNat]
  rw [text?, if_pos h]
  simp [ofText, Function.comp_def]

/-- The rest of a text after `mark`, if it begins with that. -/
def after? (mark : String) (c : Codes) : Option Codes :=
  if (ofString mark).isPrefixOf c then some (c.drop mark.length) else none

/-- A text without the blanks at both ends. -/
def trim (c : Codes) : Codes :=
  Text.dropEndWhile Text.isBlankCode (c.dropWhile Text.isBlankCode)

/-- The pieces between commas, trimmed, the empty ones left out. -/
def commaList (c : Codes) : List Codes :=
  ((Text.pieces ','.toNat c).map trim).filter (· ≠ [])

end Codes

end SourceNotes
