/-
Text as it arrives.

The octets of a file are decoded piece by piece, and the characters are handed on in
blocks. The first two blocks are there from the start; a later one is looked at only
when all before it has been read. So octets that are no text, or characters that may
not be in one, do no harm to a reader that stops before their block.

* **`Source.ofOctets`** — the text that can be read, and what is wrong after it.
-/
import SourceNotes.Charset.Lenient
import SourceNotes.Yaml.Character
import SourceNotes.Yaml.Fault

namespace SourceNotes.Yaml

open Charset

/-- The part of a text that can be read. -/
structure Source where
  text : Text
  /-- What comes to light behind it; nothing if this is the whole text. -/
  ending : Option Fault := none

/-- The octets of a text on their way. -/
structure Arrival where
  unread : Octets
  /-- The octets of an unfinished character. -/
  held : Octets := []
  /-- Whether a return has come that may be half of a line end. -/
  returnHeld : Bool := false
  /-- The characters that no block has taken yet. -/
  ahead : Text := []
  /-- The sizes of the last piece. -/
  lastOctets : Nat := 0
  lastCharacters : Nat := 1
  ended : Bool := false

namespace Arrival

/-- The number of characters in a block. -/
def blockSize : Nat := 4096

/-- The least number of octets in a piece, if there are as many. -/
def leastPiece : Nat := 8192

/-- The number of octets to take for what is missing in a block, going by the last
piece. -/
def pieceSize (a : Arrival) : Nat :=
  max leastPiece (a.lastOctets * (blockSize - a.ahead.length) / a.lastCharacters)

/-- Decodes one piece, if it is text. A return at its end waits for the next one. -/
def takePiece (a : Arrival) : Option Arrival :=
  let piece := a.unread.take a.pieceSize
  let final := piece.isEmpty
  let p := Codec.utf8.pass final (a.held ++ piece)
  let waits := p.runes.isEmpty && !final
  let come := if a.returnHeld && !waits then '\r' :: p.runes else p.runes
  let holds := !final && come.getLast? == some '\r'
  let characters := unifyNewlines (if holds then come.dropLast else come)
  if p.fault.isSome then none
  else some {
    unread := a.unread.drop a.pieceSize
    held := p.rest
    returnHeld := if waits then a.returnHeld else holds
    ahead := a.ahead ++ characters
    lastOctets := if characters.isEmpty then 0 else piece.length
    lastCharacters := max 1 characters.length
    ended := final }

/-- How far the end is. -/
def distance (a : Arrival) : Nat := a.unread.length + if a.ended then 0 else 1

theorem distance_takePiece {a a' : Arrival} (ha : a.ended = false) (h : a.takePiece = some a') :
    a'.distance < a.distance := by
  have hpos : 0 < a.pieceSize := Nat.lt_of_lt_of_le (by decide) (Nat.le_max_left _ _)
  have key : (a.unread.drop a.pieceSize).length +
      (if (a.unread.take a.pieceSize).isEmpty then 0 else 1) < a.unread.length + 1 := by
    cases hu : a.unread with
    | nil => simp
    | cons b s => simp only [List.length_drop, List.length_cons]; split <;> omega
  unfold takePiece at h
  dsimp only at h
  split at h
  · cases h
  · cases h
    simpa [distance, ha] using key

/-- Decodes until there is enough for a block. -/
def fill (a : Arrival) : Option Arrival :=
  match ha : a.ended with
  | true => some a
  | false =>
    if blockSize ≤ a.ahead.length then some a
    else
      match h : a.takePiece with
      | none => none
      | some a' =>
        have := distance_takePiece ha h
        fill a'
termination_by a.distance

/-- The next block; at the end it is shorter than others, or empty. -/
def block? (a : Arrival) : Option (Text × Arrival) :=
  a.fill.map fun a => (a.ahead.take blockSize, { a with ahead := a.ahead.drop blockSize })

/-- What can be read of further blocks. Each takes an octet at least. -/
def further : Nat → Arrival → Source
  | 0, _ => { text := [] }
  | fuel + 1, a =>
    match a.block? with
    | none => { text := [], ending := some .notText }
    | some ([], _) => { text := [] }
    | some (block, a) =>
      if block.all isPrintable then
        let more := further fuel a
        { more with text := block ++ more.text }
      else { text := [], ending := some .invalid }

end Arrival

/-- What can be read of a text in UTF-8. -/
def Source.ofOctets (octets : Octets) : Source :=
  let start : Arrival := { unread := octets }
  let blocks := do
    let (first, a) ← start.block?
    let (second, a) ← a.block?
    return (first ++ second, a)
  match blocks with
  | none => { text := [], ending := some .notText }
  | some (block, a) =>
    if block.all isPrintable then
      let more := a.further (octets.length + 1)
      { more with text := block ++ more.text }
    else { text := [], ending := some .invalid }

end SourceNotes.Yaml
