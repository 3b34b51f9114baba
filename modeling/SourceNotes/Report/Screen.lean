/-
Laying text out for printing.

Printed text holds no controls that move back or ring, and no tabs: each tab is
filled up to a tab stop, counted in columns from the start of its line.
-/
import SourceNotes.Text.Pieces
import SourceNotes.Text.Width

namespace SourceNotes.Screen

/-- The controls that are not printed: bell, backspace, vertical tab, form feed
and return. -/
def isDropped (c : Char) : Bool :=
  c == '\x07' || c == '\x08' || c == '\x0b' || c == '\x0c' || c == '\x0d'

/-- The distance between tab stops. -/
def tabSize : Nat := 8

/-- What stands before a tab, with the tab filled up to the next tab stop. A tab takes
one column at least. -/
def fillTab (before : Text) : Text :=
  let upToTab := before ++ [' ']
  upToTab ++ List.replicate ((tabSize - Text.columns upToTab % tabSize) % tabSize) ' '

/-- A line with its tabs filled, from the pieces between them. -/
def expandTabs : List Text → Text
  | [] => []
  | [last] => last
  | before :: pieces => fillTab before ++ expandTabs pieces

/-- A text as it is printed, with the newline that ends it. -/
def layout (s : Text) : Text :=
  Text.join '\n' ((Text.pieces '\n' (s.filter fun c => !isDropped c)).map fun line =>
    expandTabs (Text.pieces '\t' line)) ++ ['\n']

end SourceNotes.Screen
