/-
Ignore files of a walk.

A table holds the patterns of the folders that a walk has entered. Whether a path
is ignored is told by the last pattern that covers it, those of inner folders
coming after those of outer ones.

* **`Table.load`** — reads the ignore files of a folder;
* **`Table.ignores`** — the verdict on a path.
-/
import SourceNotes.Charset.Lenient
import SourceNotes.FileTree
import SourceNotes.Ignore.Pattern

namespace SourceNotes.Ignore

/-- The names of ignore files unless others are asked for. -/
def defaultFileNames : List Text := [".gitignore".toList, ".todosignore".toList]

/-- The patterns of the folders that have been loaded. -/
structure Table where
  /-- The folder that a walk starts from; patterns are kept relative to it. -/
  root : Path
  fileNames : List Text := defaultFileNames
  /-- The patterns of each loaded folder, in the order of loading. -/
  loaded : List (Path × List Pattern) := []

/-- The patterns in the content of an ignore file. -/
def patternsOf (content : Octets) (base : Path) : List Pattern :=
  (Text.pieces '\n' (Charset.unifyNewlines (Charset.decodeLenient content))).filterMap
    (Pattern.ofLine · base)

namespace Table

/-- A path as seen from the root of a table; a path elsewhere stays as it is. -/
def relative (t : Table) (path : Path) : Path := (path.relativeTo? t.root).getD path

/-- The patterns of one ignore file; none if there is no file to read. -/
def readFile (disk : Disk) (base file : Path) : Except SystemError (List Pattern) := do
  if ← disk.isFile file then
    match disk.read file with
    | .ok content => return patternsOf content base
    | .error _ => return []
  else return []

/-- Reads the ignore files of a folder, unless that has been done. -/
def load (disk : Disk) (folder : Path) (t : Table) : Except SystemError Table := do
  let base := t.relative folder
  if (t.loaded.lookup base).isSome then return t
  else
    let found ← t.fileNames.mapM fun name => readFile disk base (folder.append (.ofText name))
    return { t with loaded := t.loaded ++ [(base, found.flatten)] }

/-- All patterns, those of outer folders first. -/
def patterns (t : Table) : List Pattern :=
  (t.loaded.mergeSort fun a b => a.1.parts.length ≤ b.1.parts.length).flatMap (·.2)

/-- The verdict of a list of patterns: that of the last one that covers the path. -/
def verdict (ps : List Pattern) (path : Path) (isFolder : Bool) : Bool :=
  ps.foldl (fun ignored p => if p.covers path isFolder then !p.negated else ignored) false

/-- Whether a path is ignored. -/
def ignores (t : Table) (path : Path) (isFolder : Bool) : Bool :=
  verdict t.patterns (t.relative path) isFolder

end Table

end SourceNotes.Ignore
