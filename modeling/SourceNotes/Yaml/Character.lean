/-
Characters of YAML.

A YAML text holds printable characters only. Line breaks, spaces and tabs part its
words; other blanks are characters like any other. Returns do not come up: line
ends are newlines before a text is read.

* **`isPrintable`** — the characters that may stand in a YAML text;
* **`isBreak`**, **`isGap`** — what parts lines and words;
* **`isDocumentMark`** — whether a line begins or ends a document.
-/
import SourceNotes.Text.Pieces

namespace SourceNotes.Yaml

/-- The characters that may stand in a YAML text. -/
def isPrintable (c : Char) : Bool :=
  let n := c.toNat
  n == 0x09 || n == 0x0A || n == 0x0D || (0x20 ≤ n && n ≤ 0x7E) || n == 0x85 ||
    (0xA0 ≤ n && n ≤ 0xD7FF) || (0xE000 ≤ n && n ≤ 0xFFFD) || 0x10000 ≤ n

/-- The characters that end a line. -/
def isBreak (c : Char) : Bool := c == '\n' || c == '\x85' || c == '\u2028' || c == '\u2029'

/-- What a line break in a scalar stands for. -/
def breakChar (c : Char) : Char := if c = '\x85' then '\n' else c

/-- The blanks within a line. -/
def isInline (c : Char) : Bool := c == ' ' || c == '\t'

/-- The characters that part words. -/
def isGap (c : Char) : Bool := isInline c || isBreak c

/-- Whether a text is at an end or goes on with a character in `p`. -/
def endsOr (p : Char → Bool) (s : Text) : Bool := s.head?.all p

/-- Whether a character is one of `set`. -/
def isOneOf (set : String) (c : Char) : Bool := set.toList.contains c

/-- Whether a character is an ASCII letter, a digit, a hyphen or an underscore. -/
def isNameChar (c : Char) : Bool := c.isAlphanum || c == '-' || c == '_'

/-- Whether a text begins with `mark` as a word of its own. -/
def hasWord (mark : String) (s : Text) : Bool :=
  Text.startsWith mark.toList s && endsOr isGap (s.drop mark.length)

/-- Whether a line begins with the mark of a document's start or end. -/
def isDocumentMark (s : Text) : Bool := hasWord "---" s || hasWord "..." s

/-- The number of characters in a document mark. -/
def markLength : Nat := 3

/-- Whether more has to be known of a line to tell if it begins with a document mark. -/
def mayBeDocumentMark (s : Text) : Bool :=
  (s.drop (markLength - 1)).isEmpty || ((s.drop markLength).isEmpty && isDocumentMark s)

/-- The value of a hexadecimal digit. -/
def hexValue? (c : Char) : Option Nat :=
  if c.isDigit then some (c.toNat - '0'.toNat)
  else if 'a' ≤ c ∧ c ≤ 'f' then some (c.toNat - 'a'.toNat + 10)
  else if 'A' ≤ c ∧ c ≤ 'F' then some (c.toNat - 'A'.toNat + 10)
  else none

/-- The number that the first `n` characters of a text write in hexadecimal digits,
and what follows them. -/
def hexNumber? : Nat → Nat → Text → Option (Nat × Text)
  | value, 0, s => some (value, s)
  | _, _ + 1, [] => none
  | value, n + 1, c :: s => do hexNumber? (value * 16 + (← hexValue? c)) n s

/-- Whether a text could yet go on to `n` hexadecimal digits, but has fewer. -/
def lacksHexDigits (n : Nat) (s : Text) : Bool :=
  (s.drop (n - 1)).isEmpty && s.all fun c => (hexValue? c).isSome

theorem hexNumber?_length {value n m : Nat} {s rest : Text}
    (h : hexNumber? value n s = some (m, rest)) : rest.length + n = s.length := by
  induction n generalizing value s with
  | zero =>
    cases h
    rfl
  | succ n ih =>
    cases s with
    | nil => cases h
    | cons c s =>
      obtain ⟨d, _, h⟩ := Option.bind_eq_some_iff.1 h
      have := ih h
      simp only [List.length_cons]
      omega

theorem length_lt_of_hexNumber? {value n m : Nat} {s rest : Text}
    (h : hexNumber? value n s = some (m, rest)) : rest.length < s.length + 1 := by
  have := hexNumber?_length h
  omega

end SourceNotes.Yaml
