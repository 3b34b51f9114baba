/-
Octets in base 64.

Four characters write three octets, and padding fills the last four up. Characters
of no value are passed over, and so is all that follows the padding.

* **`Base64.decode?`** — the octets that a text writes.
-/
import SourceNotes.Charset.Octets
import SourceNotes.Text.Blank

namespace SourceNotes.Yaml.Base64

/-- The value of a character. -/
def value? (c : Char) : Option Nat :=
  if 'A' ≤ c ∧ c ≤ 'Z' then some (c.toNat - 'A'.toNat)
  else if 'a' ≤ c ∧ c ≤ 'z' then some (c.toNat - 'a'.toNat + 26)
  else if c.isDigit then some (c.toNat - '0'.toNat + 52)
  else if c = '+' then some 62
  else if c = '/' then some 63
  else none

/-- The octets of a text, `pads` padding marks after `place` characters of a group
with the value `left` that has not been written. -/
def decodeFrom (place left pads : Nat) : Text → Option Octets
  | [] => if place = 0 then some [] else none
  | c :: s =>
    if c = '=' then
      if 2 ≤ place then
        if 4 ≤ place + pads + 1 then some [] else decodeFrom place left (pads + 1) s
      else decodeFrom place left pads s
    else
      match value? c with
      | none => decodeFrom place left pads s
      | some v =>
        match place with
        | 0 => decodeFrom 1 v 0 s
        | 1 => (decodeFrom 2 (v % 16) 0 s).map (UInt8.ofNat (left * 4 + v / 16) :: ·)
        | 2 => (decodeFrom 3 (v % 4) 0 s).map (UInt8.ofNat (left * 16 + v / 4) :: ·)
        | _ => (decodeFrom 0 0 0 s).map (UInt8.ofNat (left * 64 + v) :: ·)

/-- The octets that a text writes. -/
def decode? (s : Text) : Option Octets := decodeFrom 0 0 0 s

end SourceNotes.Yaml.Base64
