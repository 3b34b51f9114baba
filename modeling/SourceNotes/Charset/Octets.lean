/-
Octets and the ways in which they fail to be text.

A character set reads one rune at a time off the front of a list of octets.
`Step` is the outcome of one such reading and `Fault` names what is wrong with
octets that no rune stands for.
-/
import SourceNotes.Text.Blank

namespace SourceNotes

/-- A string of octets. -/
abbrev Octets := List UInt8

namespace Charset

/-- Why octets are not text. -/
inductive Fault where
  /-- An octet that starts no UTF-8 sequence. -/
  | startByte
  /-- An octet inside a UTF-8 sequence that cannot continue it. -/
  | continuationByte
  /-- The octets end inside a sequence or between two surrogates. -/
  | unexpectedEnd
  /-- The octets end inside a code unit. -/
  | truncated
  /-- A leading surrogate without its trailing one. -/
  | unpairedSurrogate
  /-- A trailing surrogate where a rune has to start. -/
  | strayTrailer
  /-- A 32-bit unit above the last code point. -/
  | beyondLastRune
  /-- A 32-bit unit that is a surrogate. -/
  | surrogateUnit
  /-- An octet outside ASCII. -/
  | notAscii
  /-- An octet to which a table assigns nothing. -/
  | unassigned
  /-- Octets to which a table with longer codes assigns nothing. -/
  | illegalSequence
  /-- The octets end inside a longer code. -/
  | incompleteSequence
  deriving DecidableEq, Repr

/-- The wording of a fault. -/
def Fault.message : Fault → String
  | .startByte => "invalid start byte"
  | .continuationByte => "invalid continuation byte"
  | .unexpectedEnd => "unexpected end of data"
  | .truncated => "truncated data"
  | .unpairedSurrogate => "illegal UTF-16 surrogate"
  | .strayTrailer => "illegal encoding"
  | .beyondLastRune => "code point not in range(0x110000)"
  | .surrogateUnit => "code point in surrogate code point range(0xd800, 0xe000)"
  | .notAscii => "ordinal not in range(128)"
  | .unassigned => "character maps to <undefined>"
  | .illegalSequence => "illegal multibyte sequence"
  | .incompleteSequence => "incomplete multibyte sequence"

/-- One reading off the front of some octets. -/
inductive Step where
  /-- A rune, and the octets after it. -/
  | rune (c : Char) (rest : Octets)
  /-- More octets are needed to tell; the fault arises if none follow. -/
  | short (fault : Fault)
  /-- No rune begins like this, whatever follows. -/
  | bad (fault : Fault)
  /-- Two runes with one code, and the octets after it. -/
  | pair (c d : Char) (rest : Octets)
  deriving DecidableEq, Repr

/-- The runes of the code that has been read, if one has, and the octets after it. -/
def Step.read? : Step → Option (Text × Octets)
  | .rune c rest => some ([c], rest)
  | .pair c d rest => some ([c, d], rest)
  | .short _ => none
  | .bad _ => none

end Charset

end SourceNotes
