/-
Path names.

A path is a sequence of names, after a root if it is absolute. A path that is
written down loses its empty names and single dots; double dots stay.

* **`Path.ofText`**, **`Path.toText`** — reading and writing a path;
* **`Path.name`**, **`Path.suffix`** — its last name and the suffix of that;
* **`Path.relativeTo?`** — the rest of a path below another.
-/
import SourceNotes.Text.Pieces

namespace SourceNotes

/-- A path: what it starts from, and the names from there. -/
structure Path where
  /-- Empty for a relative path, else one slash or two. -/
  root : Text := []
  names : List Text := []
  deriving DecidableEq, Repr

namespace Path

/-- The root that a written path starts from: exactly two slashes are a root of
their own. -/
def rootOf (s : Text) : Text :=
  match s.takeWhile (· = '/') with
  | [] => []
  | ['/', '/'] => ['/', '/']
  | _ => ['/']

/-- Reads a path. -/
def ofText (s : Text) : Path :=
  { root := rootOf s, names := (Text.pieces '/' s).filter fun n => n ≠ [] ∧ n ≠ ['.'] }

/-- Writes a path; the empty one is a dot. -/
def toText (p : Path) : Text :=
  if p.root = [] ∧ p.names = [] then ['.'] else p.root ++ Text.join '/' p.names

/-- Whether a path starts from a root. -/
def isAbsolute (p : Path) : Bool := p.root ≠ []

/-- The path that `q` is, seen from `p`. -/
def append (p q : Path) : Path :=
  if q.isAbsolute then q else { p with names := p.names ++ q.names }

/-- The root, if there is one, and the names. -/
def parts (p : Path) : List Text := if p.isAbsolute then p.root :: p.names else p.names

/-- The last name; empty if there is none. -/
def name (p : Path) : Text := p.names.getLast?.getD []

/-- The last dot of the last name and what follows it, unless it is the first or
the last character there. -/
def suffix (p : Path) : Text :=
  let after := (p.name.reverse.takeWhile (· ≠ '.')).reverse
  let before := p.name.take (p.name.length - after.length - 1)
  if after = [] ∨ before = [] then [] else '.' :: after

/-- What is left of a path below `base`. -/
def relativeTo? (p base : Path) : Option Path :=
  if p.root = base.root ∧ base.names.isPrefixOf p.names then
    some { names := p.names.drop base.names.length }
  else none

end Path

end SourceNotes
