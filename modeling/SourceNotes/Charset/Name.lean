/-
Character sets and their names.

A character set is a codec, or one of the three forms that open with a
byte-order mark. Names are compared after folding: letters in lower case, each
run of other characters between letters and digits as one underscore.

The library has the Unicode encodings, ASCII, three of the Latin ones and Shift
JIS 2004. Every other character set without states is a `Table`, and where a
name is looked up there may be further tables. Character sets with states, such
as UTF-7 and those of ISO 2022, are left out.

* **`Charset.name`** — the name under which a character set is reported;
* **`Charset.ofName`** — the character set that a name stands for.
-/
import SourceNotes.Charset.Codec
import SourceNotes.Charset.ShiftJis
import SourceNotes.Text.Pieces

namespace SourceNotes

open Charset

/-- The two families whose code units are wider than an octet. -/
inductive Charset.Wide where
  | utf16
  | utf32
  deriving DecidableEq, Repr

/-- A character set. -/
inductive Charset where
  /-- A codec, every octet read as content. -/
  | plain (codec : Codec)
  /-- UTF-8, with one mark at the start left out. -/
  | utf8Marked
  /-- UTF-16 or UTF-32 in the order that the mark at the start tells. -/
  | wideMarked (wide : Wide)
  deriving DecidableEq, Repr

namespace Charset

/-- UTF-8 without a mark, the character set of files unless another is asked for. -/
def utf8 : Charset := .plain .utf8

/-- The name under which a codec is reported. -/
def Codec.name : Codec → String
  | .utf8 => "utf-8"
  | .utf16 .little => "utf-16-le"
  | .utf16 .big => "utf-16-be"
  | .utf32 .little => "utf-32-le"
  | .utf32 .big => "utf-32-be"
  | .ascii => "ascii"
  | .latin1 => "iso8859-1"
  | .latin9 => "iso8859-15"
  | .windows1252 => "cp1252"
  | .table t => t.name

/-- The name under which a character set is reported. -/
def name : Charset → String
  | .plain codec => codec.name
  | .utf8Marked => "utf-8-sig"
  | .wideMarked .utf16 => "utf-16"
  | .wideMarked .utf32 => "utf-32"

/-- The folded principal names. -/
def principalNames : List (String × Charset) :=
  [("utf_8", utf8), ("utf_8_sig", .utf8Marked),
   ("utf_16", .wideMarked .utf16), ("utf_32", .wideMarked .utf32),
   ("utf_16_le", .plain (.utf16 .little)), ("utf_16_be", .plain (.utf16 .big)),
   ("utf_32_le", .plain (.utf32 .little)), ("utf_32_be", .plain (.utf32 .big)),
   ("ascii", .plain .ascii), ("latin_1", .plain .latin1), ("iso8859_1", .plain .latin1),
   ("iso8859_15", .plain .latin9), ("cp1252", .plain .windows1252)]

/-- The folded names that stand for a character set beside its principal one. -/
def otherNames : List (String × Charset) :=
  ["cp65001", "u8", "utf", "utf8", "utf8_ucs2", "utf8_ucs4"].map (·, utf8) ++
  ["u16", "utf16"].map (·, .wideMarked .utf16) ++
  ["unicodelittleunmarked", "utf_16le"].map (·, .plain (.utf16 .little)) ++
  ["unicodebigunmarked", "utf_16be"].map (·, .plain (.utf16 .big)) ++
  ["u32", "utf32"].map (·, .wideMarked .utf32) ++
  ["utf_32le"].map (·, .plain (.utf32 .little)) ++
  ["utf_32be"].map (·, .plain (.utf32 .big)) ++
  ["646", "ansi_x3.4_1968", "ansi_x3.4_1986", "ansi_x3_4_1968", "cp367",
    "csascii", "ibm367", "iso646_us", "iso_646.irv_1991", "iso_ir_6", "us",
    "us_ascii"].map (·, .plain .ascii) ++
  ["8859", "cp819", "csisolatin1", "ibm819", "iso8859", "iso8859_1", "iso_8859_1",
    "iso_8859_1_1987", "iso_ir_100", "l1", "latin", "latin1"].map (·, .plain .latin1) ++
  ["1252", "windows_1252"].map (·, .plain .windows1252) ++
  ["iso_8859_15", "l9", "latin9"].map (·, .plain .latin9)

/-- Whether folding keeps a character. -/
def isNameChar (c : Char) : Bool := c.isAlphanum || c == '.'

/-- The form in which names are compared. -/
def foldName (s : Text) : Text :=
  let marked := s.map fun c => if isNameChar c then c.toLower else '_'
  Text.join '_' ((Text.pieces '_' marked).filter (· ≠ []))

/-- A folded name with underscores for its dots, as other names are written. -/
def undotted (s : Text) : Text := s.map fun c => if c = '.' then '_' else c

/-- Whether a table has a name. -/
def Table.isNamed (t : Table) (s : Text) : Bool :=
  let key := foldName s
  t.aliases.contains (String.ofList key) || t.aliases.contains (String.ofList (undotted key)) ||
    foldName t.name.toList == key

/-- Why a name stands for no character set. -/
inductive NameFault where
  /-- Neither the library nor the tables at hand have the name. -/
  | unknown
  /-- The name holds a NUL, which no name may. -/
  | nul
  deriving DecidableEq, Repr

/-- The character set that a name stands for: one of the library, or else one of `tables`. -/
def ofName (s : Text) (tables : List Table := []) : Except NameFault Charset :=
  let key := foldName s
  if '\x00' ∈ s then .error .nul
  else
    match (otherNames.lookup (String.ofList key)).or
        ((otherNames.lookup (String.ofList (undotted key))).or
          ((principalNames.lookup (String.ofList key)).or
            (((shiftJis2004 :: tables).find? fun t => t.isNamed s).map (.plain <| .table ·)))) with
    | some charset => .ok charset
    | none => .error .unknown

end Charset

end SourceNotes
