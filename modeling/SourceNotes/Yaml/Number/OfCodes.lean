/-
Reading numbers.

A plain scalar with the form of a number has a value, with hardly an exception; a
scalar that is tagged as one may have none. Underscores do not count. Digits may be
those of any script, and blanks around them do no harm.

* **`Number.readInteger`**, **`Number.readFraction`** — the number that a text writes.
-/
import SourceNotes.Text.Case
import SourceNotes.Text.Digit
import SourceNotes.Yaml.Fault
import SourceNotes.Yaml.Kind
import SourceNotes.Yaml.Number

namespace SourceNotes.Yaml.Number

/-- A text without its underscores. -/
def withoutBars (c : Codes) : Codes := c.filter (· ≠ '_'.toNat)

/-- Whether a text begins with a minus. -/
def isNegative (c : Codes) : Bool := c.head? == some '-'.toNat

/-- A text without the sign at its start. -/
def withoutSign (c : Codes) : Codes :=
  if c.head? = some '-'.toNat ∨ c.head? = some '+'.toNat then c.tail else c

/-- What a code counts as in a number: a character of ASCII, where all digits and
blanks have one. -/
def plainChar (n : Nat) : Char :=
  if n < 0x7F then Char.ofNat n
  else if Text.isBlankCode n then ' '
  else
    match Codes.digit? n with
    | some d => Char.ofNat ('0'.toNat + d)
    | none => '?'

/-- A text as it counts in a number. -/
def plainText (c : Codes) : Text := c.map plainChar

/-- Whether a character may stand before and after a number. -/
def isSpace (c : Char) : Bool := c == ' ' || ('\t' ≤ c && c ≤ '\r')

/-- The value of digits in the given base. -/
def valueOf (base : Nat) (digits : Text) : Nat :=
  digits.foldl (fun n c => n * base + (hexValue? c).getD 0) 0

/-! ### Whole numbers -/

/-- The letter that marks numbers in a base other than ten. -/
def baseLetter? (base : Nat) : Option Char :=
  if base = 2 then some 'b' else if base = 8 then some 'o' else if base = 16 then some 'x'
  else none

/-- A text without the mark of its base, if it has one. -/
def withoutMark (base : Nat) (s : Text) : Text :=
  match s with
  | '0' :: c :: t => if baseLetter? base = some c.toLower then t else s
  | _ => s

/-- The number that a text writes in digits below `base`, perhaps signed, marked and
between blanks. -/
def literal (base : Nat) (given : Codes) : Except Fault Int :=
  let start := (plainText given).dropWhile isSpace
  let s := withoutMark base (Kind.unsigned start)
  let isDigit (c : Char) : Bool := (hexValue? c).any (· < base)
  let digits := s.takeWhile isDigit
  if base = 10 ∧ maxDigits < digits.length then .error (.digits digits.length)
  else if digits = [] ∨ !(s.dropWhile isDigit).all isSpace then .error (.integer base given)
  else
    let value : Int := valueOf base digits
    .ok (if start.head? = some '-' then -value else value)

/-- The value of the places of a number in base 60. -/
def inSixties (places : List Int) : Int := places.foldl (fun n place => n * 60 + place) 0

/-- The whole number that a text without a sign writes. -/
def unsignedInteger (c : Codes) : Except Fault Int :=
  if c = Codes.ofString "0" then .ok 0
  else
    match c.after? "0b", c.after? "0x" with
    | some t, _ => literal 2 t
    | none, some t => literal 16 t
    | none, none =>
      if c.head? = some '0'.toNat then literal 8 c
      else ((Text.pieces ':'.toNat c).mapM (literal 10)).map inSixties

/-- The whole number that a text writes. -/
def readInteger (c : Codes) : Except Fault Number :=
  let c := withoutBars c
  if withoutSign c = [] then .error .emptyNumber
  else (unsignedInteger (withoutSign c)).map fun n => (ofInt n).withSign (isNegative c)

/-! ### Fractions -/

/-- The power of ten from which on all fractions are infinite, and against which all
are nothing. -/
def farPower : Int := 400

/-- The fraction nearest to the number that digits write, times a power of ten. -/
def decimal (digits : Text) (tens : Int) : Number :=
  let m := valueOf 10 digits
  if m = 0 ∨ tens + digits.length < -farPower then ofInt 0
  else if farPower < tens then .infinite false
  else nearest (m * Nat.pow 10 tens.toNat) (Nat.pow 10 (-tens).toNat)

/-- The power of ten that an exponent gives, if there is one; none at all gives 0. -/
def tens? (s : Text) : Option Int :=
  match s with
  | [] => some 0
  | 'e' :: t =>
    let digits := Kind.unsigned t
    if Kind.isRun Char.isDigit digits then
      some (if t.head? = some '-' then -valueOf 10 digits else valueOf 10 digits)
    else none
  | _ => none

/-- The fraction that a text without a sign writes. -/
def unsignedFraction? (s : Text) : Option Number :=
  if Kind.isWord ["inf", "infinity"] s then some (.infinite false)
  else if s = "nan".toList then some (.undefined false)
  else
    let before := s.takeWhile Char.isDigit
    let (after, rest) := match s.dropWhile Char.isDigit with
      | '.' :: t => (t.takeWhile Char.isDigit, t.dropWhile Char.isDigit)
      | t => ([], t)
    if before ++ after = [] then none
    else (tens? rest).map fun tens => decimal (before ++ after) (tens - after.length)

/-- The fraction that a text in small letters writes, perhaps signed and between
blanks. -/
def fraction (given : Codes) : Except Fault Number :=
  let s := Text.dropEndWhile isSpace ((plainText given).dropWhile isSpace)
  match unsignedFraction? (Kind.unsigned s) with
  | some n => .ok (n.withSign (s.head? = some '-'))
  | none => .error (.fraction given)

/-- The most places that a fraction in base 60 can have. -/
def maxPlaces : Nat := 174

/-- The sum of the places of a fraction in base 60, the last one first. -/
def sumOfPlaces (places : List Number) : Number :=
  (places.reverse.zipIdx.foldl fun sum (place, i) => sum.sum (place.scaled (Nat.pow 60 i))) (ofInt 0)

/-- The fraction that a text writes. -/
def readFraction (c : Codes) : Except Fault Number := do
  let c := (withoutBars c).lower
  let t := withoutSign c
  if c = [] then throw .emptyNumber
  let value ←
    if t = Codes.ofString ".inf" then pure (.infinite false)
    else if t = Codes.ofString ".nan" then pure (.undefined true)
    else
      match ← (Text.pieces ':'.toNat t).mapM fraction with
      | [n] => pure n
      | places => if maxPlaces < places.length then throw .places else pure (sumOfPlaces places)
  return value.withSign (isNegative c)

end SourceNotes.Yaml.Number
