/-
Patterns of ignore files.

A line of an ignore file is a glob for the paths below the folder that holds the
file. An exclamation mark in front takes paths in again; a slash at the end asks
for a folder; a slash anywhere else ties the pattern to its folder, and then the
glob is a list of globs, one per name, among which two stars stand for any number
of names.

* **`Pattern.ofLine`** — reads a line;
* **`Pattern.covers`** — whether a pattern covers a path;
* **`namesFit`** — the rule for lists of globs.
-/
import SourceNotes.Glob
import SourceNotes.Path

namespace SourceNotes.Ignore

open Text

/-- A pattern of an ignore file. -/
structure Pattern where
  glob : Text
  /-- The folder whose contents the pattern is about. -/
  base : Path
  negated : Bool := false
  folderOnly : Bool := false
  /-- The glob is about the whole path below `base`, not about a last name. -/
  anchored : Bool := false
  deriving DecidableEq, Repr

/-- Two stars, which stand for any number of names. -/
def anyNames : Text := ['*', '*']

/-- What is left of a list of names after dropping some from the front. -/
def suffixes : List Text → List (List Text)
  | [] => [[]]
  | n :: ns => (n :: ns) :: suffixes ns

/-- Whether a list of globs fits a list of names. -/
def namesFit : List Text → List Text → Bool
  | [], names => names.isEmpty
  | glob :: globs, names =>
    if glob = anyNames then (suffixes names).any (namesFit globs)
    else
      match names with
      | [] => false
      | name :: names => (Glob.ofText glob).fits name && namesFit globs names

namespace Pattern

/-- Reads a line of an ignore file; blank lines and comments give nothing. A
backslash in front keeps the next character from its special meaning. -/
def ofLine (line : Text) (base : Path) : Option Pattern :=
  let line := trimEnd line
  if line.head? = none ∨ line.head? = some '#' then none
  else
    let negated := line.head? = some '!'
    let line := if line.head? = some '!' ∨ line.head? = some '\\' then line.tail else line
    let folderOnly := line.getLast? = some '/'
    let line := dropEndWhile (· = '/') line
    let glob := line.dropWhile (· = '/')
    if glob = [] then none
    else some { glob, base, negated, folderOnly, anchored := '/' ∈ line }

/-- The path below the base of a pattern. -/
def below? (p : Pattern) (path : Path) : Option Path :=
  if p.base.parts = [] then some path
  else if p.base.root = path.root ∧ p.base.names.isPrefixOf path.names then
    some { names := path.names.drop p.base.names.length }
  else none

/-- Whether a pattern covers a path. -/
def covers (p : Pattern) (path : Path) (isFolder : Bool) : Bool :=
  if p.folderOnly && !isFolder then false
  else
    match p.below? path with
    | none => false
    | some rest =>
      if p.anchored then namesFit (pieces '/' p.glob) (pieces '/' rest.toText)
      else (Glob.ofText p.glob).fits rest.name

end Pattern

end SourceNotes.Ignore
