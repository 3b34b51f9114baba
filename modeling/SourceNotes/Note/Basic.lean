/-
Notes in comments.

A note is a line of a comment that begins with a kind such as TODO or FIXME. A
line comment holds at most one, a block comment at most one on each of its
lines.

* **`ofLineComment`**, **`ofBlockComment`**, **`ofComment`** — the notes of one
  comment.
-/
import SourceNotes.Comment.Basic
import SourceNotes.Note.Pattern

namespace SourceNotes

/-- A note and where it was found. -/
structure Note where
  kind : Text
  /-- The line of the comment that holds it. -/
  text : Text
  label : Text
  message : Text
  /-- The line that the note is on. -/
  line : Int
  /-- The line that its comment starts on. -/
  commentLine : Int
  deriving DecidableEq, Repr

namespace Note

open Text

/-- The kinds that are looked for unless others are asked for. -/
def defaultKinds : List Text :=
  ["TODO", "Todo", "todo", "FIXME", "Fixme", "fixme", "BUG", "Bug", "bug", "HACK", "Hack",
    "hack", "XXX", "COMBAK"].map String.toList

/-- The note that a match in the line `text` is. -/
def ofMatch (text : Text) (line commentLine : Int) (m : Match) : Note :=
  { kind := m.kind, text, label := m.tail.labelText, message := m.tail.messageText
    line, commentLine }

/-- The text of a line comment without the characters of its start and the blanks
around it. -/
def lineBody (rule : Option LineRule) (text : Text) : Text :=
  match rule with
  | some rule => trim (text.dropWhile (· ∈ rule.start))
  | none => trim text

/-- The note in a line comment. -/
def ofLineComment (kinds : List Text) (rule : Option LineRule) (comment : Text) (line : Int) :
    Option Note :=
  let text := trim comment
  (Match.read kinds true (lineBody rule text)).map (ofMatch text line line)

/-- One line of a block comment without delimiters, decoration and blanks. -/
def blockBody (rule : Option BlockRule) (text : Text) : Text :=
  let inner := match rule with
    | some rule => dropSuffix rule.stop (dropPrefix rule.start text)
    | none => text
  trim (inner.dropWhile fun c => isBlank c || c == '*')

/-- The note in one line of a block comment. -/
def ofBlockLine (kinds : List Text) (rule : Option BlockRule) (commentLine : Int)
    (row : Text × Nat) : Option Note :=
  let text := trim row.1
  (Match.read kinds false (blockBody rule text)).map
    (ofMatch text (commentLine + row.2) commentLine)

/-- The notes in a block comment. -/
def ofBlockComment (kinds : List Text) (rule : Option BlockRule) (comment : Text) (line : Int) :
    List Note :=
  (pieces '\n' comment).zipIdx.filterMap (ofBlockLine kinds rule line)

/-- The notes in a comment, for kinds in the order in which they are tried. -/
def ofComment (kinds : List Text) (comment : Comment) : List Note :=
  match comment.form with
  | .line rule => (ofLineComment kinds rule comment.text comment.line).toList
  | .block rule => ofBlockComment kinds rule comment.text comment.line

end Note

end SourceNotes
