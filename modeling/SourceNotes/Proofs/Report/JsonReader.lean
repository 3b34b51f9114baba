/-
A reader of JSON.

The grammar of JSON texts (RFC 8259) as a function: a value with blanks around it, an object with
its members in the order in which they stand, numbers as a mantissa and a power of ten. What is no
JSON text has no value; half of a surrogate pair that stands alone is no character, and so no part
of a string.

* **`Json.string?`** — a string, from behind its opening quote;
* **`Json.number?`** — a number;
* **`Json.value?`**, **`Json.read?`** — a value at the beginning of a text, and the value that a
  whole text is.
-/
import SourceNotes.Text.Codes
import SourceNotes.Yaml.Character

namespace SourceNotes.Json

/-- A JSON value. A number is its mantissa times ten to the power of its exponent. -/
inductive Tree where
  | null
  | bool (b : Bool)
  | number (mantissa exponent : Int)
  | string (s : Text)
  | array (items : List Tree)
  | object (members : List (Text × Tree))

/-- The characters that may stand around values. -/
def isBlank (c : Char) : Bool := c == ' ' || c == '\t' || c == '\n' || c == '\r'

/-- A text without the blanks at its beginning. -/
def skipBlanks (s : Text) : Text := s.dropWhile isBlank

/-! ### Strings -/

/-- The characters that a backslash and one character more stand for. -/
def shortEscapes : List (Char × Char) :=
  [('"', '"'), ('\\', '\\'), ('/', '/'), ('b', '\x08'), ('f', '\x0c'), ('n', '\n'), ('r', '\r'),
    ('t', '\t')]

/-- The character that four hexadecimal digits stand for, or four of them and four more behind
another escape, and what follows. -/
def codeEscape? (s : Text) : Option (Char × Text) := do
  let (code, s) ← Yaml.hexNumber? 0 4 s
  if Codes.isCharacter code then return (Char.ofNat code, s)
  else if code ≤ 0xDBFF ∧ ['\\', 'u'].isPrefixOf s = true then
    let (low, s) ← Yaml.hexNumber? 0 4 (s.drop 2)
    if 0xDC00 ≤ low ∧ low ≤ 0xDFFF then
      return (Char.ofNat (0x10000 + (code - 0xD800) * 0x400 + (low - 0xDC00)), s)
    else none
  else none

/-- The character that an escape stands for, from behind its backslash. -/
def escape? : Text → Option (Char × Text)
  | [] => none
  | c :: s =>
    if c = 'u' then codeEscape? s else (shortEscapes.lookup c).map fun d => (d, s)

/-- The next character of a string, escaped or not. -/
def character? : Text → Option (Char × Text)
  | [] => none
  | c :: s =>
    if c = '\\' then escape? s
    else if c = '"' ∨ c.toNat < 0x20 then none
    else some (c, s)

/-- The characters of a string up to its closing quote, less than `n` of them. -/
def characters? : Nat → Text → Option (Text × Text)
  | 0, _ => none
  | n + 1, s =>
    if s.head? = some '"' then some ([], s.tail)
    else do
      let (c, s) ← character? s
      let (t, s) ← characters? n s
      return (c :: t, s)

/-- A string, from behind its opening quote. -/
def string? (s : Text) : Option (Text × Text) := characters? s.length s

/-! ### Numbers -/

/-- Whether a minus stands in front, and what follows it. -/
def minus (s : Text) : Bool × Text := if s.head? = some '-' then (true, s.tail) else (false, s)

/-- The number that digits stand for, with its sign. -/
def signed (negative : Bool) (digits : Text) : Int :=
  if negative then -(Nat.ofDigitChars 10 digits 0 : Int) else Nat.ofDigitChars 10 digits 0

/-- The digits behind a decimal point, if there is one. -/
def fraction? (s : Text) : Option (Text × Text) :=
  if s.head? = some '.' then
    let digits := s.tail.takeWhile Char.isDigit
    if digits = [] then none else some (digits, s.tail.dropWhile Char.isDigit)
  else some ([], s)

/-- The exponent that stands behind a number, if there is one. -/
def exponent? (s : Text) : Option (Int × Text) :=
  if s.head? = some 'e' ∨ s.head? = some 'E' then
    let (negative, s) := if s.tail.head? = some '+' then (false, s.tail.tail) else minus s.tail
    let digits := s.takeWhile Char.isDigit
    if digits = [] then none else some (signed negative digits, s.dropWhile Char.isDigit)
  else some (0, s)

/-- A number. No nought stands in front of other digits. -/
def number? (s : Text) : Option (Tree × Text) :=
  let (negative, s) := minus s
  let whole := s.takeWhile Char.isDigit
  if whole = [] ∨ whole.head? = some '0' ∧ whole ≠ ['0'] then none
  else do
    let (fraction, s) ← fraction? (s.dropWhile Char.isDigit)
    let (exponent, s) ← exponent? s
    return (.number (signed negative (whole ++ fraction)) (exponent - fraction.length), s)

/-! ### Values -/

mutual

/-- The value at the beginning of a text, of less than `n` levels and members on the way. -/
def value? : Nat → Text → Option (Tree × Text)
  | 0, _ => none
  | _ + 1, [] => none
  | n + 1, c :: s =>
    if c = '-' ∨ c.isDigit = true then number? (c :: s)
    else if c = '"' then (string? s).map fun (t, s) => (.string t, s)
    else if c = '\x7b' then
      if (skipBlanks s).head? = some '\x7d' then some (.object [], (skipBlanks s).tail)
      else (members? n (skipBlanks s)).map fun (members, s) => (.object members, s)
    else if c = '[' then
      if (skipBlanks s).head? = some ']' then some (.array [], (skipBlanks s).tail)
      else (items? n (skipBlanks s)).map fun (items, s) => (.array items, s)
    else if "true".toList.isPrefixOf (c :: s) then some (.bool true, s.drop 3)
    else if "false".toList.isPrefixOf (c :: s) then some (.bool false, s.drop 4)
    else if "null".toList.isPrefixOf (c :: s) then some (.null, s.drop 3)
    else none

/-- The items of an array up to its closing bracket, one at least. -/
def items? : Nat → Text → Option (List Tree × Text)
  | 0, _ => none
  | n + 1, s => do
    let (item, s) ← value? n s
    let s := skipBlanks s
    if s.head? = some ']' then return ([item], s.tail)
    else if s.head? = some ',' then
      let (items, s) ← items? n (skipBlanks s.tail)
      return (item :: items, s)
    else none

/-- The members of an object up to its closing brace, one at least. -/
def members? : Nat → Text → Option (List (Text × Tree) × Text)
  | 0, _ => none
  | n + 1, s =>
    if s.head? = some '"' then do
      let (key, s) ← string? s.tail
      let s := skipBlanks s
      if s.head? = some ':' then
        let (value, s) ← value? n (skipBlanks s.tail)
        let s := skipBlanks s
        if s.head? = some '\x7d' then return ([(key, value)], s.tail)
        else if s.head? = some ',' then
          let (members, s) ← members? n (skipBlanks s.tail)
          return ((key, value) :: members, s)
        else none
      else none
    else none

end

/-- The value that a whole text is. -/
def read? (s : Text) : Option Tree := do
  let (value, s) ← value? (s.length + 1) (skipBlanks s)
  if skipBlanks s = [] then return value else none

/-- Two escapes that stand for one character, and a number with all its parts. -/
example : read? ['"', '\\', 'u', 'd', '8', '3', 'd', '\\', 'u', 'd', 'e', '0', '0', '"'] =
      some (.string ['😀']) ∧
    read? ['[', '-', '2', '.', '5', '0', 'e', '3', ']', ' '] = some (.array [.number (-250) 1]) :=
  ⟨rfl, rfl⟩

/-- No nought stands in front of a digit, and no comma behind the last item. -/
example : read? ['0', '1'] = none ∧ read? ['[', '1', ',', ']'] = none := ⟨rfl, rfl⟩

end SourceNotes.Json
