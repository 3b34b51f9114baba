/-
Notes as JSON.

An object stands on one line, with a blank after each colon and comma. In strings
only the quote, the backslash and the controls below the space are escaped.
-/
import SourceNotes.Note.Basic
import SourceNotes.Text.Quoted

namespace SourceNotes.Json

/-- A character inside a string. -/
def encodeChar (c : Char) : Text :=
  match c with
  | '"' => ['\\', '"']
  | '\\' => ['\\', '\\']
  | '\n' => ['\\', 'n']
  | '\r' => ['\\', 'r']
  | '\t' => ['\\', 't']
  | '\x08' => ['\\', 'b']
  | '\x0c' => ['\\', 'f']
  | c => if c.toNat < 0x20 then '\\' :: 'u' :: Text.hex 4 c.toNat else [c]

/-- A string in quotes. -/
def encodeString (s : Text) : Text := '"' :: s.flatMap encodeChar ++ ['"']

/-- A field of an object. -/
inductive Value where
  | string (s : Text)
  | int (n : Int)
  deriving DecidableEq, Repr

/-- The text of a value. -/
def Value.encode : Value → Text
  | .string s => encodeString s
  | .int n => (toString n).toList

/-- A key with its value. -/
def encodeField (f : Text × Value) : Text := encodeString f.1 ++ ':' :: ' ' :: f.2.encode

/-- The fields of an object, parted by commas. -/
def encodeFields : List (Text × Value) → Text
  | [] => []
  | [f] => encodeField f
  | f :: g :: fs => encodeField f ++ ',' :: ' ' :: encodeFields (g :: fs)

/-- An object with the given fields. -/
def encodeObject (fields : List (Text × Value)) : Text :=
  '\x7b' :: encodeFields fields ++ ['\x7d']

/-- The fields of a note in a file. -/
def fields (path : Text) (n : Note) : List (Text × Value) :=
  [("path".toList, .string path), ("type".toList, .string n.kind),
   ("text".toList, .string n.text), ("label".toList, .string n.label),
   ("message".toList, .string n.message), ("line".toList, .int n.line),
   ("comment_line".toList, .int n.commentLine)]

end SourceNotes.Json
