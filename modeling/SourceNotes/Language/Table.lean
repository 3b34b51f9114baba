/-
The comments and strings of known languages.

`Language.table` gives each language its rules, in the order of the names.
`Language.rules?` looks a name up and `Language.names` lists the names.
-/
import SourceNotes.Rules.Basic

namespace SourceNotes.Language

/-! ### Common rules -/

def doubleQuote : StringRule := { start := ['"'], stop := ['"'] }
def singleQuote : StringRule := { start := ['\''], stop := ['\''] }
def quotes : List StringRule := [doubleQuote, singleQuote]

/-- A string between two copies of `c`, with the given escape. -/
def between (c : Char) (escape : Escape) : StringRule :=
  { start := [c], stop := [c], escape,
    start_ne_nil := List.cons_ne_nil _ _, stop_ne_nil := List.cons_ne_nil _ _ }

/-- Quoted strings whose end cannot be escaped. -/
def rawQuotes : List StringRule := [between '"' .none, between '\'' .none]

/-- A raw string between grave accents. -/
def graveString : StringRule := between '\x60' .none

def slashLine : LineRule := { start := ['/', '/'] }
def hashLine : LineRule := { start := ['#'] }
def dashLine : LineRule := { start := ['-', '-'] }
def semicolonLine : LineRule := { start := [';'] }
def percentLine : LineRule := { start := ['%'] }
def bangLine : LineRule := { start := ['!'] }
def singleQuoteLine : LineRule := { start := ['\''] }
def doubleQuoteLine : LineRule := { start := ['"'] }

def slashBlock : BlockRule := { start := ['/', '*'], stop := ['*', '/'] }
def slashNestedBlock : BlockRule := { start := ['/', '*'], stop := ['*', '/'], nested := true }
def tagBlock : BlockRule := { start := ['<', '!', '-', '-'], stop := ['-', '-', '>'] }

/-! ### Styles that several languages share -/

def slashStyle : Rules := { lines := [slashLine], blocks := [slashBlock], strings := quotes }

def slashNestedStyle : Rules :=
  { lines := [slashLine], blocks := [slashNestedBlock], strings := quotes }

def hashStyle : Rules := { lines := [hashLine], strings := quotes }

def assemblyStyle : Rules :=
  { lines := [semicolonLine], blocks := [slashBlock], strings := rawQuotes }

def lispStyle : Rules := { lines := [semicolonLine], strings := [doubleQuote] }

def fortranStyle : Rules := { lines := [bangLine], strings := rawQuotes }

def tagStyle : Rules := { blocks := [tagBlock], strings := quotes }

def basicStyle : Rules := { lines := [singleQuoteLine], strings := [doubleQuote] }

/-! ### The table -/

/-- The rules of each language, in the order of the names. -/
def table : List (String × Rules) :=
  [("Assembly", assemblyStyle),
   ("C", slashStyle),
   ("C#", slashStyle),
   ("C++", slashStyle),
   ("Clojure", lispStyle),
   ("CoffeeScript",
    { lines := [hashLine], strings := quotes
      blocks := [{ start := ['#', '#', '#'], stop := ['#', '#', '#'] }] }),
   ("Dockerfile", hashStyle),
   ("Emacs Lisp", lispStyle),
   ("Erlang", { lines := [percentLine], strings := quotes }),
   ("Fortran", fortranStyle),
   ("Fortran Free Form", fortranStyle),
   ("Go",
    { lines := [slashLine], blocks := [slashBlock], strings := quotes ++ [graveString] }),
   ("Go Module", { lines := [slashLine], strings := [doubleQuote, graveString] }),
   ("Groovy",
    { lines := [slashLine], blocks := [slashBlock]
      strings := quotes ++ [{ start := ['\'', '\'', '\''], stop := ['\'', '\'', '\''] }] }),
   ("HTML", tagStyle),
   ("Haskell",
    { lines := [dashLine], strings := quotes
      blocks := [{ start := ['\x7b', '-'], stop := ['-', '\x7d'], nested := true }] }),
   -- Some dialects of JSON have comments.
   ("JSON", { lines := [slashLine, hashLine], blocks := [slashBlock], strings := quotes }),
   ("Java", slashStyle),
   ("JavaScript", slashStyle),
   ("Kotlin", slashNestedStyle),
   ("Lua",
    { lines := [dashLine], strings := quotes
      blocks := [{ start := ['-', '-', '[', '['], stop := ['-', '-', ']', ']'] }] }),
   ("MATLAB",
    { lines := [percentLine], strings := quotes
      blocks := [{ start := ['%', '\x7b'], stop := ['\x7d', '%'] }] }),
   ("Makefile", hashStyle),
   ("Objective-C", slashStyle),
   ("PHP", { lines := [hashLine, slashLine], blocks := [slashBlock], strings := quotes }),
   ("Perl",
    { lines := [hashLine], strings := quotes
      blocks := [{ start := ['='], stop := ['=', 'c', 'u', 't'], atFirstColumn := true }] }),
   ("PowerShell",
    { lines := [hashLine], blocks := [{ start := ['<', '#'], stop := ['#', '>'] }]
      strings := [between '"' (.char '\x60'), between '\'' (.char '\x60')] }),
   ("Puppet", hashStyle),
   ("Python",
    { lines := [hashLine], strings := quotes
      blocks :=
        [{ start := ['"', '"', '"'], stop := ['"', '"', '"'] },
         { start := ['\'', '\'', '\''], stop := ['\'', '\'', '\''] }] }),
   ("R", hashStyle),
   ("Ruby",
    { lines := [hashLine]
      blocks :=
        [{ start := ['=', 'b', 'e', 'g', 'i', 'n'], stop := ['=', 'e', 'n', 'd']
           atFirstColumn := true }]
      strings := quotes ++ [{ start := ['%', '\x7b'], stop := ['\x7d'] }] }),
   ("Rust", slashNestedStyle),
   ("SQL",
    { lines := [dashLine], blocks := [slashBlock]
      strings := [between '"' .double, between '\'' .double] }),
   ("Scala", slashNestedStyle),
   ("Shell", hashStyle),
   ("Swift", { lines := [slashLine], blocks := [slashNestedBlock], strings := [doubleQuote] }),
   ("TOML", hashStyle),
   ("TeX", { lines := [percentLine] }),
   ("TypeScript", slashStyle),
   ("Unix Assembly", assemblyStyle),
   ("VBA", basicStyle),
   -- A double quote opens a comment as well as a string.
   ("Vim Script", { lines := [doubleQuoteLine], strings := quotes }),
   ("Visual Basic .NET", basicStyle),
   ("XML", tagStyle),
   ("YAML", hashStyle)]

/-- The rules of a language. -/
def rules? (name : String) : Option Rules := table.lookup name

/-- What is said about a name that is not in the table. -/
def unsupportedMessage (name : String) : String := s!"unsupported language: {name}"

/-- The names of the languages, in order. -/
def names : List String := table.map (·.1)

end SourceNotes.Language
