/-
Opening a source file.

A file is scanned if it looks like text, if its character set is known and if its
name tells a language. `SourceFile.ofOctets` checks these in this order.

* **`looksBinary`** — a NUL among the first 8000 octets;
* **`detectCharset`** — the character set that a byte-order mark tells;
* **`resolveCharset`** — the character set that a name asks for.
-/
import SourceNotes.Comment.Scanner
import SourceNotes.FileTree
import SourceNotes.Language.OfPath
import SourceNotes.Text.Quoted

namespace SourceNotes

open Charset

/-- A source file that is ready to be scanned. -/
structure SourceFile where
  language : String
  charset : Charset
  scanner : Scanner

namespace SourceFile

/-- Why a file is not scanned. -/
inductive OpenError where
  | binary (path : Text)
  | charset (name : Text) (fault : NameFault)
  /-- The name of the character set holds codes that are no characters. -/
  | brokenCharset (name : Codes)
  | language (path : Text)
  deriving DecidableEq, Repr

/-- The wording of an error. -/
def OpenError.message : OpenError → String
  | .binary path => s!"{String.ofList path}: binary file"
  | .charset name .unknown => s!"unsupported character set: {String.ofList name}"
  | .charset _ .nul => "embedded null character"
  | .brokenCharset name => s!"{String.ofList (Text.quotedCodes name)} is no name of a character set"
  | .language path => s!"{String.ofList path}: unsupported language"

/-- The number of octets that are looked at to tell text from other data. -/
def sniffLength : Nat := 8000

/-- Whether octets look like something other than text. -/
def looksBinary (octets : Octets) : Bool := (octets.take sniffLength).contains 0

/-- The marks that tell a character set. A mark that another one begins with
comes after it. -/
def marks : List (Octets × Charset) :=
  [(Wide.utf32.mark .big, .wideMarked .utf32), (Wide.utf32.mark .little, .wideMarked .utf32),
   (utf8Mark, .utf8Marked),
   (Wide.utf16.mark .big, .wideMarked .utf16), (Wide.utf16.mark .little, .wideMarked .utf16)]

/-- The character set that the mark at the start tells, or UTF-8. -/
def detectCharset (octets : Octets) : Charset :=
  ((marks.find? fun m => m.1.isPrefixOf octets).map (·.2)).getD Charset.utf8

/-- The name that asks for detection. -/
def detectName : Text := "detect".toList

/-- The character set that a name asks for. -/
def resolveCharset (name : Codes) (octets : Octets) (tables : List Table := []) :
    Except OpenError Charset :=
  match name.text? with
  | none => .error (.brokenCharset name)
  | some s =>
    if s.map Char.toLower = detectName then .ok (detectCharset octets)
    else (Charset.ofName s tables).mapError (.charset s)

/-- The file with this path and content. -/
def ofOctets (path : Text) (octets : Octets) (charsetName : Codes) (tables : List Table := []) :
    Except OpenError SourceFile :=
  if looksBinary octets then .error (.binary path)
  else
    match resolveCharset charsetName octets tables with
    | .error e => .error e
    | .ok charset =>
      match Language.ofPath? path with
      | none => .error (.language path)
      | some language =>
        match Language.rules? language with
        | none => .error (.language path)
        | some rules =>
          .ok { language, charset, scanner := .ofReader rules (.ofCharset charset octets) }

/-- The file that a path leads to, if the system lets it be read. -/
def ofDisk (disk : Disk) (path : Path) (charsetName : Codes) :
    Except SystemError (Except OpenError SourceFile) := do
  return ofOctets path.toText (← disk.read path) charsetName

end SourceFile

end SourceNotes
