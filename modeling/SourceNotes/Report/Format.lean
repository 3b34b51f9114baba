/-
Output formats.

A note is printed on a line of its own: as path, line and text, as a command to
annotate code in a GitHub workflow, or as a JSON object.

* **`Format.ofName?`** — the format with a given name;
* **`Format.print`** — what is printed for a note.
-/
import SourceNotes.Report.Json
import SourceNotes.Report.Markup
import SourceNotes.Report.Screen

namespace SourceNotes

/-- A way to print notes. -/
inductive Format where
  | plain
  | github
  | json
  deriving DecidableEq, Repr

namespace Format

/-- The format with a given name. -/
def ofName? (name : Text) : Option Format :=
  if name = [] ∨ name = "default".toList then some .plain
  else if name = "github".toList then some .github
  else if name = "json".toList then some .json
  else none

/-- The kinds of notes that are annotated as warnings. -/
def warningKinds : List Text := ["TODO", "HACK", "COMBAK"].map String.toList

/-- The kinds of notes that are annotated as errors. -/
def errorKinds : List Text := ["FIXME", "XXX", "BUG"].map String.toList

/-- How grave an annotation is. -/
def level (kind : Text) : Text :=
  if warningKinds.contains kind then "warning".toList
  else if errorKinds.contains kind then "error".toList
  else "notice".toList

/-- A line number in digits. -/
def digits (line : Int) : Text := (toString line).toList

/-- The markup of a note: path, line and text in colours of their own. -/
def markup (path : Text) (n : Note) : Text :=
  "[magenta]".toList ++ Markup.escape path ++ "[/magenta][cyan]:[/cyan][green]".toList ++
    digits n.line ++ "[/green][cyan]:[/cyan]".toList ++ Markup.escape n.text

/-- The workflow command of a note. -/
def command (path : Text) (n : Note) : Text :=
  "::".toList ++ level n.kind ++ " file=".toList ++ path ++ ",line=".toList ++ digits n.line ++
    "::".toList ++ n.text

/-- What is printed for a note in a file. -/
def print (format : Format) (path : Text) (n : Note) : Text :=
  Screen.layout <|
    match format with
    | .plain => Markup.render (markup path n)
    | .github => command path n
    | .json => Json.encodeObject (Json.fields path n)

end Format

end SourceNotes
