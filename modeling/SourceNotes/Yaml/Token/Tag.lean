/-
Written tags and directives.

A tag begins with an exclamation mark. It is written in full between angle brackets,
or as a suffix to a handle that stands for the text before it. Characters beyond
those of an address are written in hexadecimal, as octets of UTF-8.

* **`Tag.read`**, **`Directive.read`** — a tag or directive at the start of a text.
-/
import SourceNotes.Charset.Lenient
import SourceNotes.Yaml.Token

namespace SourceNotes.Yaml

namespace Tag

/-- The characters of a tag's suffix, the percent sign of escapes apart. -/
def isAddressChar (c : Char) : Bool := c.isAlphanum || isOneOf "-;/?:@&=+$,_.!~*'()[]" c

/-- Whether a tag ends here. -/
def ends (s : Text) : Bool := endsOr (fun c => c == ' ' || isBreak c) s

/-- The text that octets encode, one escape after another. -/
def unescaped (octets : Octets) : Except Fault Text :=
  match Charset.decodeStrict octets with
  | some s => .ok s
  | none => .error .invalid

/-- The characters of a suffix, `escaped` octets first, and what follows them. -/
def addressFrom (escaped : Octets) (s : Text) : Except Fault (Text × Text) :=
  match s with
  | '%' :: t =>
    match h : hexNumber? 0 2 t with
    | none => .error (if lacksHexDigits 2 t then .unfinished .invalid else .invalid)
    | some (n, u) =>
      have : u.length < t.length + 1 := length_lt_of_hexNumber? h
      addressFrom (escaped ++ [UInt8.ofNat n]) u
  | c :: t =>
    if isAddressChar c then do
      let before ← unescaped escaped
      let (more, rest) ← addressFrom [] t
      return (before ++ c :: more, rest)
    else do return (← unescaped escaped, c :: t)
  | [] => ((unescaped escaped).mapError .unfinished).map fun before => (before, [])
termination_by s.length

/-- The fault of a text that is not what it should be here. -/
def unexpected (s : Text) : Fault := if s = [] then .unfinished .invalid else .invalid

/-- The suffix at the start of a text, which may not be empty, and what follows it. -/
def address (s : Text) : Except Fault (Text × Text) :=
  if s.head?.any fun c => c == '%' || isAddressChar c then addressFrom [] s
  else .error (unexpected s)

/-- The handle at the start of a text, and what follows it. -/
def handle (s : Text) : Except Fault (Text × Text) :=
  match s with
  | '!' :: t =>
    if t.head? = some ' ' then .ok (['!'], t)
    else
      match t.dropWhile isNameChar with
      | '!' :: rest => .ok ('!' :: t.takeWhile isNameChar ++ ['!'], rest)
      | rest => .error (unexpected rest)
  | _ => .error (unexpected s)

/-- The word at the start of a text. -/
def word (s : Text) : Text := s.takeWhile fun c => c != ' ' && !isBreak c

/-- The handle, if there is one, and the suffix of the tag whose exclamation mark is
followed by `s`, and what follows them. -/
def parts (s : Text) : Except Fault (Option Text × Text × Text) :=
  match s with
  | '<' :: t => do
    let (suffix, rest) ← address t
    match rest with
    | '>' :: rest => return (none, suffix, rest)
    | _ => throw (unexpected rest)
  | _ =>
    if endsOr isGap s then .ok (none, ['!'], s)
    else do
      let (handle, rest) ← if '!' ∈ word s then handle ('!' :: s) else pure (['!'], s)
      let (suffix, rest) ← address rest
      return (some handle, suffix, rest)

/-- Whether the end of a tag's word has to be found to know if it has a handle, and
is not there. -/
def needsWord (s : Text) : Bool :=
  s.head? != some '<' && !endsOr isGap s && !(word s).contains '!' && (word s).length == s.length

/-- The tag whose exclamation mark is followed by `s`, and what follows it. -/
def read (s : Text) : Except Fault (Token × Text) :=
  let made : Except Fault (Token × Text) := do
    let (handle, suffix, rest) ← parts s
    if ends rest then return (.tag handle suffix, rest) else throw .invalid
  if needsWord s then made.mapError .unfinished else made

end Tag

namespace Directive

/-- A number at the start of a text, and what follows it. -/
def number (s : Text) : Except Fault (Nat × Text) :=
  match s.takeWhile Char.isDigit, s.dropWhile Char.isDigit with
  | [], rest => .error (Tag.unexpected rest)
  | digits, rest =>
    if maxDigits < digits.length then
      let fault := Fault.digits digits.length
      .error (if rest = [] then .unfinished fault else fault)
    else .ok (digits.foldl (fun n c => n * 10 + (c.toNat - '0'.toNat)) 0, rest)

/-- The version at the start of a text, and what follows it. -/
def readVersion (s : Text) : Except Fault (Directive × Text) := do
  let (major, rest) ← number (s.dropWhile (· = ' '))
  match rest with
  | '.' :: rest =>
    let (_, rest) ← number rest
    if Tag.ends rest then return (.version major, rest) else throw .invalid
  | _ => throw (Tag.unexpected rest)

/-- The handle at the start of a text with what it stands for, and what follows. -/
def readTag (s : Text) : Except Fault (Directive × Text) := do
  let (handle, rest) ← Tag.handle (s.dropWhile (· = ' '))
  if rest.head? ≠ some ' ' then throw (Tag.unexpected rest)
  let (stem, rest) ← Tag.address (rest.dropWhile (· = ' '))
  if Tag.ends rest then return (.tag handle stem, rest) else throw .invalid

/-- The directive whose percent sign is followed by `s`, and what follows its line. -/
def read (s : Text) : Except Fault (Directive × Text) := do
  let name := s.takeWhile isNameChar
  let rest := s.dropWhile isNameChar
  if name = [] ∨ !Tag.ends rest then throw (Tag.unexpected rest)
  let (directive, rest) ←
    if name = "YAML".toList then readVersion rest
    else if name = "TAG".toList then readTag rest
    else pure (.other, rest.dropWhile fun c => !isBreak c)
  let rest := rest.dropWhile (· = ' ')
  let rest := if rest.head? = some '#' then rest.dropWhile fun c => !isBreak c else rest
  if endsOr isBreak rest then return (directive, rest.tail) else throw .invalid

end Directive

end SourceNotes.Yaml
