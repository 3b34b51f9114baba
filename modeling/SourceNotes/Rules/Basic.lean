/-
Rules for comments and strings.

`Rules` says what a language's comments and string literals look like. Every
delimiter is non-empty and a comment that nests has two different delimiters;
these facts are fields of the rules, so that a scan can rely on them.

* **`LineRule.make`**, **`BlockRule.make`**, **`StringRule.make`**,
  **`Escape.ofChar`** — build a rule from delimiters that have to be checked.
-/
import SourceNotes.Text.Quoted

namespace SourceNotes

/-- How the end of a string is kept from ending it. -/
inductive Escape where
  /-- It cannot be. -/
  | none
  /-- By this character before it; the character also escapes itself. -/
  | char (c : Char)
  /-- By writing it twice. -/
  | double
  deriving DecidableEq, Repr

/-- The character that escapes in most languages. -/
def Escape.backslash : Escape := .char '\\'

/-- A comment from `start` to the end of the line. -/
structure LineRule where
  start : Text
  start_ne_nil : start ≠ [] := by decide
  deriving DecidableEq, Repr

/-- A comment from `start` to `stop`. -/
structure BlockRule where
  start : Text
  stop : Text
  /-- Both delimiters count at the first column only. -/
  atFirstColumn : Bool := false
  /-- Both delimiters count only where nothing but blanks is before them on the line. -/
  atLineStart : Bool := false
  /-- `start` opens another comment inside. -/
  nested : Bool := false
  start_ne_nil : start ≠ [] := by decide
  stop_ne_nil : stop ≠ [] := by decide
  start_ne_stop : nested = true → start ≠ stop := by decide
  deriving DecidableEq, Repr

/-- A string literal from `start` to `stop`. -/
structure StringRule where
  start : Text
  stop : Text
  escape : Escape := .backslash
  start_ne_nil : start ≠ [] := by decide
  stop_ne_nil : stop ≠ [] := by decide
  deriving DecidableEq, Repr

/-- The comments and strings of a language. -/
structure Rules where
  lines : List LineRule := []
  blocks : List BlockRule := []
  strings : List StringRule := []
  deriving DecidableEq, Repr

/-- The delimiters that have to be there. -/
inductive DelimiterKind where
  | lineStart
  | blockStart
  | blockStop
  | stringStart
  | stringStop
  deriving DecidableEq, Repr

/-- What a delimiter is called in messages. -/
def DelimiterKind.name : DelimiterKind → String
  | .lineStart => "line comment start"
  | .blockStart => "multi-line comment start"
  | .blockStop => "multi-line comment end"
  | .stringStart => "string start"
  | .stringStop => "string end"

/-- Why something is no rule. -/
inductive RuleError where
  | emptyDelimiter (kind : DelimiterKind)
  | nestedAlike (start stop : Text)
  | escapeNotOneChar (given : Text)
  deriving DecidableEq, Repr

/-- The wording of an error. -/
def RuleError.message : RuleError → String
  | .emptyDelimiter kind => s!"empty {kind.name} delimiter"
  | .nestedAlike _ _ => "nested comments need distinct start and end delimiters"
  | .escapeNotOneChar given => s!"invalid escape character {String.ofList (Text.quoted given)}"

/-- The escape by the one character of a text. -/
def Escape.ofChar : Text → Except RuleError Escape
  | [c] => .ok (.char c)
  | s => .error (.escapeNotOneChar s)

/-- A line rule with the given delimiter. -/
def LineRule.make (start : Text) : Except RuleError LineRule :=
  if h : start = [] then .error (.emptyDelimiter .lineStart) else .ok ⟨start, h⟩

/-- A block rule with the given delimiters. -/
def BlockRule.make (start stop : Text) (atFirstColumn atLineStart nested : Bool) :
    Except RuleError BlockRule :=
  if hs : start = [] then .error (.emptyDelimiter .blockStart)
  else if ht : stop = [] then .error (.emptyDelimiter .blockStop)
  else if hn : nested = true ∧ start = stop then .error (.nestedAlike start stop)
  else .ok ⟨start, stop, atFirstColumn, atLineStart, nested, hs, ht, fun h e => hn ⟨h, e⟩⟩

/-- A string rule with the given delimiters. -/
def StringRule.make (start stop : Text) (escape : Escape) : Except RuleError StringRule :=
  if hs : start = [] then .error (.emptyDelimiter .stringStart)
  else if ht : stop = [] then .error (.emptyDelimiter .stringStop)
  else .ok ⟨start, stop, escape, hs, ht⟩

end SourceNotes
