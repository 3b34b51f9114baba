/-
Values without parts.

The value of a scalar is made of its text as its tag says: nothing, a number, a time, a
text or octets. Truth values are the numbers 0 and 1.

* **`Atom.ofText`** — the value of a text with a tag;
* **`Atom.isSame`** — whether two values are the same.
-/
import SourceNotes.Yaml.Base64
import SourceNotes.Yaml.Node
import SourceNotes.Yaml.Number.OfCodes

namespace SourceNotes.Yaml

/-- A value without parts. -/
inductive Atom where
  | null
  | number (n : Number)
  | time (t : Moment)
  | text (c : Codes)
  | octets (o : Octets)
  deriving DecidableEq, Repr

namespace Atom

/-- Whether two values are the same. Numbers are if they are equal, whole or not. -/
def isSame : Atom → Atom → Bool
  | .number n, .number n' => n.isSame n'
  | .number _, _ | _, .number _ => false
  | a, b => a == b

/-- The words for truth values, in small letters. -/
def truthWords : List (String × Bool) :=
  [("yes", true), ("no", false), ("true", true), ("false", false), ("on", true), ("off", false)]

/-- The truth value that a text writes. -/
def readTruth (c : Codes) : Except Fault Atom :=
  match truthWords.find? fun w => Codes.ofString w.1 == c.lower with
  | some (_, value) => .ok (.number (.ofInt (if value then 1 else 0)))
  | none => .error .boolean

/-- The time that a text writes, perhaps with a newline at its end. -/
def readTime (c : Codes) : Except Fault Atom :=
  match c.text?.bind fun s => Time.read? (Text.dropSuffix ['\n'] s) with
  | none => .error .time
  | some t =>
    match t.fault? with
    | some fault => .error (.calendar fault)
    | none => .ok (.time t.moment)

/-- The octets that a text writes in base 64. -/
def readOctets (c : Codes) : Except Fault Atom :=
  match if c.all (· < 128) then c.text?.bind Base64.decode? else none with
  | some o => .ok (.octets o)
  | none => .error .invalid

/-- The value of a text with a tag. -/
def ofText (tag : Tag) (c : Codes) : Except Fault Atom :=
  match tag with
  | .scalar .null => .ok .null
  | .scalar .boolean => readTruth c
  | .scalar .integer => (Number.readInteger c).map .number
  | .scalar .fraction => (Number.readFraction c).map .number
  | .scalar .time => readTime c
  | .scalar .text => .ok (.text c)
  | .binary => readOctets c
  | _ => .error .invalid

end Atom

end SourceNotes.Yaml
