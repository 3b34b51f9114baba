/-
What plain scalars are.

A scalar without quotes and without a tag is a text unless it has the form of
something else: nothing, a truth value, a number, a time, the mark of a merge or of a
default value, or a mark that begins a tag, an anchor or an alias.

* **`Kind.ofText`** — what a plain scalar is.
-/
import SourceNotes.Yaml.Time

namespace SourceNotes.Yaml

/-- What a scalar is. -/
inductive Kind where
  | null
  | boolean
  | integer
  | fraction
  | time
  | merge
  | default
  /-- An exclamation mark, an ampersand or a star alone, of which nothing can be made. -/
  | mark
  | text
  deriving DecidableEq, Repr

namespace Kind

/-- Whether a text is one of `words`. -/
def isWord (words : List String) (s : Text) : Bool := words.any fun w => w.toList == s

def isNull (s : Text) : Bool := isWord ["", "~", "null", "Null", "NULL"] s

def isBoolean (s : Text) : Bool :=
  isWord ["yes", "Yes", "YES", "no", "No", "NO", "true", "True", "TRUE", "false", "False",
    "FALSE", "on", "On", "ON", "off", "Off", "OFF"] s

/-- Whether a text has a character and all of them are in `p`. -/
def isRun (p : Char → Bool) (s : Text) : Bool := !s.isEmpty && s.all p

/-- A digit, or an underscore between digits. -/
def isDigitOrBar (c : Char) : Bool := c.isDigit || c == '_'

/-- Digits that an underscore may follow but not begin. -/
def isDigits (s : Text) : Bool := s.head?.any Char.isDigit && s.all isDigitOrBar

/-- A text without the sign at its start. -/
def unsigned (s : Text) : Text :=
  match s with
  | '+' :: t | '-' :: t => t
  | _ => s

/-- Whether a text is a number below sixty, of one digit or two. -/
def isSixtieth (s : Text) : Bool :=
  match s with
  | [a] => a.isDigit
  | [a, b] => '0' ≤ a && a ≤ '5' && b.isDigit
  | _ => false

/-- Whether numbers below sixty follow in a row. -/
def areSixtieths (l : List Text) : Bool := !l.isEmpty && l.all isSixtieth

/-- Whether a text is a whole number: in base 2, 8, 10 or 16, or in base 60 with
colons. -/
def isInteger (s : Text) : Bool :=
  match unsigned s with
  | '0' :: 'b' :: t => isRun (fun c => c == '0' || c == '1' || c == '_') t
  | '0' :: 'x' :: t => isRun (fun c => (hexValue? c).isSome || c == '_') t
  | '0' :: t => t.all fun c => ('0' ≤ c && c ≤ '7') || c == '_'
  | t =>
    match Text.pieces ':' t with
    | [digits] => isDigits digits
    | digits :: more => isDigits digits && areSixtieths more
    | [] => false

/-- Whether a text is empty or an exponent with a sign. -/
def isExponent (s : Text) : Bool :=
  match s with
  | [] => true
  | e :: sign :: t => isOneOf "eE" e && isOneOf "+-" sign && isRun Char.isDigit t
  | _ => false

/-- Whether a text is a fraction: with a point, with an exponent after it or with
colons before it, or the name of an infinity or of no number. -/
def isFraction (s : Text) : Bool :=
  let exponentFollows (t : Text) : Bool := isExponent (t.dropWhile isDigitOrBar)
  let t := unsigned s
  match t.takeWhile (· ≠ '.'), t.dropWhile (· ≠ '.') with
  | _, [] => false
  | [], _ :: after =>
    isWord ["inf", "Inf", "INF"] after
      || (t == s && (isWord ["nan", "NaN", "NAN"] after
        || (after.head?.any Char.isDigit && exponentFollows after)))
  | before, _ :: after =>
    match Text.pieces ':' before with
    | [digits] => isDigits digits && exponentFollows after
    | digits :: more => isDigits digits && areSixtieths more && after.all isDigitOrBar
    | [] => false

/-- What a scalar is that is judged by its text. A newline at its end makes no
difference, except where there is nothing before it. -/
def ofText (s : Text) : Kind :=
  let t := Text.dropSuffix ['\n'] s
  if t = [] ∧ s ≠ [] then .text
  else if isNull t then .null
  else if isBoolean t then .boolean
  else if isInteger t then .integer
  else if isFraction t then .fraction
  else if Time.isPlain t then .time
  else if t = ['<', '<'] then .merge
  else if t = ['='] then .default
  else if isWord ["!", "&", "*"] t then .mark
  else .text

end Kind

end SourceNotes.Yaml
