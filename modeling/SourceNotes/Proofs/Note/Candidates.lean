/-
The lines of a comment in which notes are looked for.

A line comment is looked at as one line, a block comment line by line. Which lines these are, and
what is left of each without delimiters and decoration, does not depend on the wanted kinds; these
only settle which of the lines are notes.

* **`candidates`** — the lines of a comment in which notes are looked for;
* **`ofComment_eq`** — the notes of a comment are those of its candidates, in order;
* **`places_eq`** — the places at which notes are reported, picked from those of all candidates.
-/
import SourceNotes.Proofs.Note.Rows

namespace SourceNotes.Note

open Text

/-- Where a note stands. -/
structure Place where
  /-- The line of the comment that holds it. -/
  text : Text
  line : Int
  commentLine : Int
  deriving DecidableEq, Repr

/-- The place of a note. -/
def place (t : Note) : Place := ⟨t.text, t.line, t.commentLine⟩

/-- A line of a comment in which a note is looked for. -/
structure Candidate where
  place : Place
  /-- The line without delimiters, decoration and blanks. -/
  body : Text
  /-- Whether a message may stand directly behind the kind. -/
  glued : Bool
  deriving DecidableEq, Repr

/-- What is read in a candidate. -/
def Candidate.match? (kinds : List Text) (c : Candidate) : Option Match :=
  Match.read kinds c.glued c.body

/-- The note that a candidate is. -/
def Candidate.note? (kinds : List Text) (c : Candidate) : Option Note :=
  (c.match? kinds).map (ofMatch c.place.text c.place.line c.place.commentLine)

/-- The lines of a comment in which notes are looked for. -/
def candidates (c : Comment) : List Candidate :=
  match c.form with
  | .line rule => [⟨⟨trim c.text, c.line, c.line⟩, lineBody rule (trim c.text), true⟩]
  | .block rule =>
    (pieces '\n' c.text).zipIdx.map fun row =>
      ⟨⟨trim row.1, c.line + row.2, c.line⟩, blockBody rule (trim row.1), false⟩

/-- The notes in some comments, one comment after another. -/
def ofComments (kinds : List Text) (comments : List Comment) : List Note :=
  comments.flatMap (ofComment (ordered kinds))

/-- The places at which notes of the given kinds are reported. -/
def places (kinds : List Text) (comments : List Comment) : List Place :=
  (ofComments kinds comments).map place

/-- A search reports the notes of the comments that its scan delivers. -/
theorem drain_eq_ofComments (kinds : List Text) (s : Scanner) :
    (Finder.ofScanner kinds s).drain.1 = ofComments kinds s.drain.1 := rfl

/-- The notes of a comment are those of its candidates. -/
theorem ofComment_eq (kinds : List Text) (c : Comment) :
    ofComment kinds c = (candidates c).filterMap (Candidate.note? kinds) := by
  unfold ofComment candidates
  cases c.form with
  | line rule =>
    have hnote : Candidate.note? kinds
        ⟨⟨trim c.text, c.line, c.line⟩, lineBody rule (trim c.text), true⟩ =
          ofLineComment kinds rule c.text c.line := rfl
    dsimp only
    rw [List.filterMap_cons, hnote]
    cases ofLineComment kinds rule c.text c.line <;> rfl
  | block rule =>
    rw [List.filterMap_map]
    rfl

theorem mem_ofComment_iff {kinds : List Text} {c : Comment} {t : Note} :
    t ∈ ofComment kinds c ↔ ∃ candidate ∈ candidates c, candidate.note? kinds = some t := by
  rw [ofComment_eq, List.mem_filterMap]

/-- A note stands where its candidate does. -/
theorem map_place_note? (kinds : List Text) (c : Candidate) :
    (c.note? kinds).map Note.place = if (c.match? kinds).isSome then some c.place else none := by
  unfold Candidate.note?
  cases c.match? kinds <;> rfl

/-- The places of notes are those of the candidates that are notes. -/
theorem places_eq (kinds : List Text) (comments : List Comment) :
    places kinds comments =
      ((comments.flatMap candidates).filter fun c => (c.match? (ordered kinds)).isSome).map
        Candidate.place := by
  have hnotes : ofComments kinds comments =
      (comments.flatMap candidates).filterMap (Candidate.note? (ordered kinds)) := by
    rw [ofComments, List.filterMap_flatMap, funext (ofComment_eq (ordered kinds))]
  rw [places, hnotes, List.map_filterMap, funext (map_place_note? (ordered kinds))]
  induction comments.flatMap candidates with
  | nil => rfl
  | cons c rest ih =>
    rw [List.filterMap_cons, List.filter_cons, ih]
    cases (c.match? (ordered kinds)).isSome <;> rfl

end SourceNotes.Note
