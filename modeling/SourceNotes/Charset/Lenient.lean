/-
UTF-8 read without giving up.

Settings and ignore files are UTF-8 with line ends of any kind. Where octets are
not UTF-8, a strict reader fails, and a lenient one puts a replacement character
for each longest stretch that could have begun a rune.

* **`decodeStrict`**, **`decodeLenient`** — the two readers;
* **`unifyNewlines`** — a text with every line end as a newline.
-/
import SourceNotes.Charset.Codec

namespace SourceNotes.Charset

/-- The text that octets encode in UTF-8, if they do. -/
def decodeStrict (octets : Octets) : Option Text :=
  let p := Codec.utf8.pass true octets
  if p.fault = none then some p.runes else none

/-- The character that stands for octets that are not text. -/
def replacement : Char := '\uFFFD'

/-- The length of the stretch that is replaced as one where `b :: s` does not begin
with a rune: the first octet and those that could have followed it. -/
def brokenLength (b : UInt8) : Octets → Nat
  | [] => 1
  | c :: s =>
    if 0xE0 ≤ b ∧ b < 0xF0 then if isSecondOfThree b c then 2 else 1
    else if 0xF0 ≤ b ∧ b < 0xF5 then
      if isSecondOfFour b c then
        match s with
        | [] => 2
        | d :: _ => if isTail d then 3 else 2
      else 1
    else 1

/-- The text that octets encode in UTF-8, with replacements where they do not. -/
def decodeLenient : Octets → Text
  | [] => []
  | b :: s =>
    match h : utf8Step b s with
    | .rune c t =>
      have : t.length < s.length + 1 := Nat.lt_succ_of_le (utf8Step_length h)
      c :: decodeLenient t
    | _ => replacement :: decodeLenient (s.drop (brokenLength b s - 1))
termination_by s => s.length

/-- A text with each line end, be it a return, a newline or both, as a newline. -/
def unifyNewlines : Text → Text
  | [] => []
  | '\r' :: '\n' :: s => '\n' :: unifyNewlines s
  | '\r' :: s => '\n' :: unifyNewlines s
  | c :: s => c :: unifyNewlines s

end SourceNotes.Charset
