/-
Reading runes with lookahead.

A reader delivers the runes of a file one after another. It takes octets in
chunks, only as many as a call needs, and keeps the decoded runes that have not
been consumed (`ahead`). Octets that cannot be decoded are reported when a call
finds no rune before them.

* **`Reader.peek`** — the next runes, nothing consumed;
* **`Reader.advance`** — consumes runes and moves the position;
* **`Reader.remaining`** — a bound on the runes still to come, which `fill` never
  raises (`remaining_fill_le`) and consuming lowers (`remaining_consume`).
-/
import SourceNotes.Charset.Decoder
import SourceNotes.Position

namespace SourceNotes

open Charset

/-- Why a call to a reader has no answer. -/
inductive ReadError where
  /-- The next octets are not text. -/
  | undecodable (charset : Text) (fault : Fault) (line : Nat)
  /-- More lookahead than the reader's limit was asked for. -/
  | peekLimit (requested limit : Nat)
  /-- The content lacks the byte-order mark that its character set needs. -/
  | unmarked (wide : Wide)
  /-- More octets at a time are to be taken than can be addressed. -/
  | chunkTooLarge (size : Nat)
  /-- A negative count was asked for. -/
  | negativePeek (n : Int)
  | negativeAdvance (n : Int)
  deriving DecidableEq, Repr

namespace ReadError

/-- Whether the error ends a scan; the others pass through it. -/
def endsScan : ReadError → Bool
  | .undecodable .. => true
  | .peekLimit .. => true
  | _ => false

/-- The wording of an error. -/
def message : ReadError → String
  | .undecodable charset fault _ => s!"decoding {String.ofList charset}: {fault.message}"
  | .peekLimit requested limit => s!"peek of {requested} runes exceeds limit of {limit}"
  | .unmarked .utf16 => "UTF-16 stream does not start with BOM"
  | .unmarked .utf32 => "UTF-32 stream does not start with BOM"
  | .chunkTooLarge size => s!"cannot take {size} octets at a time"
  | .negativePeek n => s!"negative peek count: {n}"
  | .negativeAdvance n => s!"negative advance count: {n}"

end ReadError

/-- A fault that the reader has run into, and the line it was on at that time. -/
structure Breakage where
  fault : Fault
  line : Nat
  deriving DecidableEq, Repr

/-- A reader between two calls. -/
structure Reader where
  /-- The name under which errors mention the character set. -/
  charsetName : Text
  /-- The most lookahead that a call may ask for. -/
  maxPeek : Nat := 1024
  /-- The number of octets taken at a time. -/
  chunkSize : Nat := 4096
  decoder : Decoder
  /-- The octets that have not been taken yet. -/
  unread : Octets
  /-- The runes that have been decoded and not consumed. -/
  ahead : Text := []
  breakage : Option Breakage := none
  /-- Whether the end of the octets has been seen. -/
  ended : Bool := false
  position : Position := {}
  chunkSize_pos : 0 < chunkSize := by decide

/-- A call to a reader: an answer or an error, and the reader after it. -/
abbrev Reading := EStateM ReadError Reader

/-- Whether a list has at least `n` members. -/
def hasAtLeast {α : Type} : Nat → List α → Bool
  | 0, _ => true
  | _ + 1, [] => false
  | n + 1, _ :: s => hasAtLeast n s

theorem hasAtLeast_iff {α : Type} {n : Nat} {s : List α} :
    hasAtLeast n s = true ↔ n ≤ s.length := by
  induction s generalizing n with
  | nil => cases n <;> simp [hasAtLeast]
  | cons a s ih => cases n <;> simp [hasAtLeast, ih]

namespace Reader

/-- A bound on the number of runes still to come. -/
def remaining (r : Reader) : Nat :=
  r.unread.length + r.decoder.held.length + r.ahead.length

/-- The most octets that can be addressed: one less than `2 ^ 63`. -/
def maxChunk : Nat := 9223372036854775807

/-- Takes one chunk of octets and decodes it. -/
def takeChunk : Reading Unit := fun r =>
  let chunk := r.unread.take r.chunkSize
  let unread := r.unread.drop r.chunkSize
  if maxChunk < r.chunkSize then .error (.chunkTooLarge r.chunkSize) r
  else match r.decoder.feed chunk chunk.isEmpty with
  | .decoded runes next =>
    .ok () { r with unread, decoder := next, ahead := r.ahead ++ runes, ended := chunk.isEmpty }
  | .broken runes fault =>
    .ok () { r with
      unread
      decoder := { r.decoder with held := [] }
      ahead := r.ahead ++ runes
      ended := chunk.isEmpty
      breakage := some { fault, line := r.position.line } }
  | .unmarked wide next => .error (.unmarked wide) { r with unread, decoder := next }

/-- How far a reader is from the end of its octets. -/
def distance (r : Reader) : Nat := r.unread.length + if r.ended then 0 else 1

theorem distance_takeChunk {r r' : Reader} (hr : r.ended = false) (h : takeChunk r = .ok () r') :
    r'.distance < r.distance := by
  have hpos := r.chunkSize_pos
  have key : (r.unread.drop r.chunkSize).length +
      (if (r.unread.take r.chunkSize).isEmpty then 0 else 1) < r.unread.length + 1 := by
    cases hu : r.unread with
    | nil => simp
    | cons b s => simp only [List.length_drop, List.length_cons]; split <;> omega
  unfold takeChunk at h
  dsimp only at h
  split at h
  · cases h
  split at h
  · cases h; simpa [distance, hr] using key
  · cases h; simpa [distance, hr] using key
  · cases h

/-- Decodes until `n` runes are ahead, or until the octets end or are at fault.
A fault is an error only if no rune is ahead of it. -/
def fill (n : Nat) (r : Reader) : EStateM.Result ReadError Reader Unit :=
  if hasAtLeast n r.ahead then .ok () r
  else
    match r.breakage with
    | some b =>
      if r.ahead.isEmpty then .error (.undecodable r.charsetName b.fault b.line) r else .ok () r
    | none =>
      match hr : r.ended with
      | true => .ok () r
      | false =>
        match h : takeChunk r with
        | .ok () r' =>
          have := distance_takeChunk hr h
          fill n r'
        | .error e r' => .error e r'
termination_by r.distance

/-- Moves past `n` of the runes ahead, or past all of them. -/
def consume (n : Nat) (r : Reader) : Reader :=
  { r with ahead := r.ahead.drop n, position := r.position.after (r.ahead.take n) }

/-- The next `n` runes, or as many as there are. -/
def look (n : Nat) : Reading Text := fun r =>
  if r.maxPeek < n then .error (.peekLimit n r.maxPeek) r
  else
    match r.fill n with
    | .ok () r => .ok (r.ahead.take n) r
    | .error e r => .error e r

/-- The next `n` runes without consuming them; fewer only if the text ends. -/
def peek (n : Int) : Reading Text := fun r =>
  if n < 0 then .error (.negativePeek n) r else look n.toNat r

/-- The next `n` runes without consuming them, and whether there are so many. -/
def peekOk (n : Int) : Reading (Text × Bool) := do
  let s ← peek n
  return (s, s.length == n.toNat)

/-- Consumes `n` runes, or as many as there are, and tells how many it were. -/
def advance (n : Int) : Reading Nat := fun r =>
  if n < 0 then .error (.negativeAdvance n) r
  else
    match r.fill n.toNat with
    | .ok () r => .ok (r.ahead.take n.toNat).length (r.consume n.toNat)
    | .error e r => .error e r

/-- The number of runes that are decoded and not consumed. -/
def buffered (r : Reader) : Nat := r.ahead.length

/-- Why a reader cannot be opened. -/
inductive OpenError where
  | maxPeek (n : Int)
  | charset (name : Text) (fault : NameFault)
  deriving DecidableEq, Repr

/-- The wording of an error. -/
def OpenError.message : OpenError → String
  | .maxPeek n => s!"max_peek must be positive, got {n}"
  | .charset name .unknown => s!"unsupported character set: {String.ofList name}"
  | .charset _ .nul => "embedded null character"

/-- A reader at the start of some octets. A chunk size below 1 counts as 1. -/
def ofOctets (octets : Octets) (charsetName : Text) (maxPeek chunkSize : Int)
    (tables : List Table := []) : Except OpenError Reader :=
  if maxPeek < 1 then .error (.maxPeek maxPeek)
  else
    match ofName charsetName tables with
    | .error fault => .error (.charset charsetName fault)
    | .ok charset =>
      .ok { charsetName, maxPeek := maxPeek.toNat, chunkSize := (max chunkSize 1).toNat
            decoder := .ofCharset charset, unread := octets, chunkSize_pos := by omega }

/-- A reader at the start of some octets, with the usual limits. -/
def ofCharset (charset : Charset) (octets : Octets) : Reader :=
  { charsetName := charset.name.toList, decoder := .ofCharset charset, unread := octets }

end Reader

/-- What a call leaves behind, whether it answered or not. -/
def stateOf {ε σ α : Type} : EStateM.Result ε σ α → σ
  | .ok _ s => s
  | .error _ s => s

namespace Reader

theorem remaining_takeChunk_le (r : Reader) : (stateOf (takeChunk r)).remaining ≤ r.remaining := by
  have h := r.decoder.feed_length (r.unread.take r.chunkSize) (r.unread.take r.chunkSize).isEmpty
  have hlen : (r.unread.take r.chunkSize).length + (r.unread.drop r.chunkSize).length =
      r.unread.length := by
    rw [← List.length_append, List.take_append_drop]
  unfold takeChunk
  dsimp only
  split
  · exact Nat.le_refl _
  split <;> rename_i heq <;>
    simp only [heq, Fed.runes, Fed.held, List.length_nil] at h <;>
    simp only [stateOf, remaining, List.length_append, List.length_nil] <;> omega

theorem remaining_fill_le (n : Nat) (r : Reader) :
    (stateOf (r.fill n)).remaining ≤ r.remaining := by
  fun_induction fill n r with
  | case5 r _ _ _ r' h _ ih =>
    have := remaining_takeChunk_le r
    rw [h] at this
    exact Nat.le_trans ih this
  | case6 r _ _ _ e r' h =>
    have := remaining_takeChunk_le r
    rwa [h] at this
  | _ => exact Nat.le_refl _

theorem remaining_look_le (n : Nat) (r : Reader) :
    (stateOf (look n r)).remaining ≤ r.remaining := by
  have h := remaining_fill_le n r
  unfold look
  split
  · exact Nat.le_refl _
  · cases hf : r.fill n <;> simpa [hf, stateOf] using h

/-- Looking shows runes that are ahead afterwards. -/
theorem ahead_of_look {n : Nat} {r r' : Reader} {s : Text} (h : look n r = .ok s r') :
    s = r'.ahead.take n := by
  unfold look at h
  split at h
  · cases h
  · split at h
    · cases h; rfl
    · cases h

theorem remaining_consume (n : Nat) (r : Reader) :
    (r.consume n).remaining + (r.ahead.take n).length = r.remaining := by
  simp only [consume, remaining, List.length_drop, List.length_take]
  omega

end Reader

end SourceNotes
