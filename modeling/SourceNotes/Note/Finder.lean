/-
Finding the notes in a text.

A finder goes through the comments of a scanner and delivers their notes one at
a time.

* **`Finder.next`** — the next note;
* **`Finder.drain`** — all the notes that are left.
-/
import SourceNotes.Comment.Scanner
import SourceNotes.Note.Basic

namespace SourceNotes

/-- A search between two notes. -/
structure Finder where
  scanner : Scanner
  /-- The wanted kinds, in the order in which they are tried. -/
  kinds : List Text
  /-- Notes of the last comment that have not been delivered. -/
  pending : List Note := []

namespace Finder

/-- A search for notes of the given kinds in what is left of a scan. -/
def ofScanner (kinds : List Text) (scanner : Scanner) : Finder :=
  { scanner, kinds := Note.ordered kinds }

/-- The next note, or none if the scan is at its end. -/
def next (f : Finder) : Except ReadError (Option Note) × Finder :=
  match f.pending with
  | note :: notes => (.ok (some note), { f with pending := notes })
  | [] =>
    match h : f.scanner.next with
    | (.ok none, scanner) => (.ok none, { f with scanner })
    | (.error e, scanner) => (.error e, { f with scanner })
    | (.ok (some comment), scanner) =>
      have := Scanner.remaining_next_lt h
      next { f with scanner, pending := Note.ofComment f.kinds comment }
termination_by f.scanner.head.remaining

/-- All the notes that are left, and the error that ended the scan or the one
that is passed on. -/
def drain (f : Finder) : List Note × Except ReadError (Option ReadError) :=
  let (comments, last) := f.scanner.drain
  (f.pending ++ comments.flatMap (Note.ofComment f.kinds), last.map Scanner.error)

end Finder

end SourceNotes
