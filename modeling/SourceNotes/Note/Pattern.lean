/-
The form of a note.

A line of a comment is a note if it begins with one of the wanted kinds, such as
TODO, perhaps after an at sign. What follows the kind is the *tail*: nothing, a
label in parentheses, a message, or both.

* **`Tail.read`** — reads what follows the kind. In *glued* mode a message may
  stand directly behind the kind; otherwise a blank or a mark has to part them;
* **`Match.read`** — tries the kinds, the longer ones first.
-/
import SourceNotes.Text.Pieces

namespace SourceNotes.Note

open Text

/-- What follows the kind of a note. -/
inductive Tail where
  | bare
  | labelled (label : Text)
  | labelledMessage (label message : Text)
  | plain (message : Text)
  deriving DecidableEq, Repr

/-- A kind and its tail, as they stand in a line. -/
structure Match where
  kind : Text
  tail : Tail
  deriving DecidableEq, Repr

/-- The marks that may part a message from what is before it. -/
def isMark (c : Char) : Bool := c == ':' || c == '-' || c == '/'

/-- A text without the blanks, marks and blanks at its start. -/
def afterMarks (s : Text) : Text := trimStart ((trimStart s).dropWhile isMark)

/-- The message that `s` is: all of it if it has no newline but one at its end,
which does not count. -/
def oneLine (s : Text) : Option Text :=
  let rest := s.dropWhile (· ≠ '\n')
  if rest = [] ∨ rest = ['\n'] then some (s.takeWhile (· ≠ '\n')) else none

/-- The label in parentheses at the start of a text, and what follows it. -/
def labelled? : Text → Option (Text × Text)
  | '(' :: s =>
    match s.dropWhile (· ≠ ')') with
    | [] => none
    | _ :: rest => some (s.takeWhile (· ≠ ')'), rest)
  | _ => none

/-- Whether a blank or a mark is at the start of a text. -/
def isParted : Text → Bool
  | [] => false
  | c :: _ => isBlank c || isMark c

/-- Reads what follows the kind of a note. -/
def Tail.read (glued : Bool) (s : Text) : Option Tail :=
  if allBlank s then some .bare
  else
    match labelled? s with
    | some (label, rest) =>
      if allBlank rest then some (.labelled label)
      else (oneLine (afterMarks rest)).map (.labelledMessage label)
    | none =>
      if glued || isParted s then (oneLine (afterMarks s)).map .plain else none

/-- The label of a tail, without the blanks around it. -/
def Tail.labelText : Tail → Text
  | .labelled label => trim label
  | .labelledMessage label _ => trim label
  | _ => []

/-- The message of a tail, without the blanks around it. -/
def Tail.messageText : Tail → Text
  | .labelledMessage _ message => trim message
  | .plain message => trim message
  | _ => []

/-- Whether `a` is tried before `b`: the longer first, equally long ones in
order. -/
def triedBefore (a b : Text) : Bool :=
  b.length < a.length || (a.length == b.length && Text.notAfter a b)

/-- Kinds in the order in which they are tried, each once and none empty. -/
def ordered (kinds : List Text) : List Text :=
  ((kinds.filter (· ≠ [])).eraseDups).mergeSort triedBefore

/-- The first of the kinds that the text begins with and that leaves a tail. -/
def Match.first? (kinds : List Text) (glued : Bool) (s : Text) : Option Match :=
  kinds.findSome? fun kind =>
    if startsWith kind s then (Tail.read glued (s.drop kind.length)).map (Match.mk kind) else none

/-- Reads a note at the start of a text, behind an at sign if that works. -/
def Match.read (kinds : List Text) (glued : Bool) (s : Text) : Option Match :=
  match s with
  | '@' :: rest => (first? kinds glued rest).or (first? kinds glued s)
  | _ => first? kinds glued s

end SourceNotes.Note
