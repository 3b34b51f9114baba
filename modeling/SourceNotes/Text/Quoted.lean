/-
Showing a text in quotes.

`quoted` writes a text the way messages show it: between single quotes, or
between double quotes where that spares the escape of a single one, with
invisible characters as escapes in hexadecimal digits.
-/
import SourceNotes.Text.Codes
import SourceNotes.Text.Invisible

namespace SourceNotes.Text

/-- The digit `n` in hexadecimal, in lower case. -/
def hexDigit (n : Nat) : Char :=
  if n < 10 then Char.ofNat (0x30 + n) else Char.ofNat (0x57 + n)

/-- The last `width` hexadecimal digits of `n`. -/
def hex : Nat → Nat → Text
  | 0, _ => []
  | width + 1, n => hex width (n / 16) ++ [hexDigit (n % 16)]

/-- A code as it stands between quotes `q`. -/
def quotedCode (q : Char) (n : Nat) : Text :=
  let c := Char.ofNat n
  if n = q.toNat ∨ n = '\\'.toNat then ['\\', c]
  else if n = '\t'.toNat then ['\\', 't']
  else if n = '\n'.toNat then ['\\', 'n']
  else if n = '\r'.toNat then ['\\', 'r']
  else if !isInvisible n then [c]
  else if n < 0x100 then '\\' :: 'x' :: hex 2 n
  else if n < 0x10000 then '\\' :: 'u' :: hex 4 n
  else '\\' :: 'U' :: hex 8 n

/-- A text, given by its codes, in quotes. -/
def quotedCodes (s : Codes) : Text :=
  let q := if '\''.toNat ∈ s ∧ '"'.toNat ∉ s then '"' else '\''
  q :: s.flatMap (quotedCode q) ++ [q]

/-- A text in quotes. -/
def quoted (s : Text) : Text := quotedCodes (Codes.ofText s)

end SourceNotes.Text
