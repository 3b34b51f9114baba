/-
Decoding in chunks.

A decoder is fed the octets of a file in chunks. It holds back the octets of an
unfinished rune until the next chunk and, for the marked character sets, decides
on the byte order once the mark has been seen.

* **`Decoder.feed`** — decodes one chunk;
* **`Decoder.feed_length`** — a chunk never yields more runes than the octets
  that were held back and fed.
-/
import SourceNotes.Charset.Name

namespace SourceNotes.Charset

namespace Wide

/-- The number of octets in a code unit. -/
def size : Wide → Nat
  | .utf16 => 2
  | .utf32 => 4

/-- The codec of one byte order. -/
def codec : Wide → ByteOrder → Codec
  | .utf16, order => .utf16 order
  | .utf32, order => .utf32 order

/-- The byte-order mark as it is written in one byte order. -/
def mark : Wide → ByteOrder → Octets
  | .utf16, .little => [0xFF, 0xFE]
  | .utf16, .big => [0xFE, 0xFF]
  | .utf32, .little => [0xFF, 0xFE, 0, 0]
  | .utf32, .big => [0, 0, 0xFE, 0xFF]

/-- The byte order of octets that begin with a mark. -/
def orderOf (w : Wide) (s : Octets) : Option ByteOrder :=
  if (w.mark .little).isPrefixOf s then some .little
  else if (w.mark .big).isPrefixOf s then some .big
  else none

end Wide

/-- The mark that a marked UTF-8 file opens with. -/
def utf8Mark : Octets := [0xEF, 0xBB, 0xBF]

/-- The rune that every mark encodes. -/
def markRune : Char := '\uFEFF'

/-- What a decoder knows about its input so far. -/
inductive Phase where
  /-- All content is read with this codec. -/
  | settled (codec : Codec)
  /-- UTF-8 whose first three octets have not been seen yet. -/
  | beforeUtf8Mark
  /-- The mark that tells the byte order has not been seen yet. -/
  | beforeOrderMark (wide : Wide)
  deriving DecidableEq, Repr

/-- A decoder between two chunks. -/
structure Decoder where
  phase : Phase
  /-- Octets that were fed and are not decoded yet. -/
  held : Octets := []
  deriving DecidableEq, Repr

/-- The decoder at the start of a file. -/
def Decoder.ofCharset : Charset → Decoder
  | .plain codec => { phase := .settled codec }
  | .utf8Marked => { phase := .beforeUtf8Mark }
  | .wideMarked wide => { phase := .beforeOrderMark wide }

/-- The outcome of feeding a decoder one chunk. -/
inductive Fed where
  /-- Some runes, and the decoder for the next chunk. -/
  | decoded (runes : Text) (next : Decoder)
  /-- The runes before octets that are at fault. -/
  | broken (runes : Text) (fault : Fault)
  /-- Content without the mark it needs; the chunk is lost. -/
  | unmarked (wide : Wide) (next : Decoder)
  deriving DecidableEq, Repr

namespace Decoder

/-- Decodes all the octets at hand with a settled codec. -/
def feedSettled (codec : Codec) (final : Bool) (octets : Octets) : Fed :=
  let p := codec.pass final octets
  match p.fault with
  | none => .decoded p.runes { phase := .settled codec, held := p.rest }
  | some f => .broken p.runes f

/-- Decodes UTF-8 from its first octets on. Fewer than three octets that may be
a mark are held back, even at the end of the input. The runes before a fault are
looked at afresh, so there a second mark goes with the first. -/
def feedUtf8Mark (final : Bool) (octets : Octets) : Fed :=
  if octets.length < 3 && octets.isPrefixOf utf8Mark then
    .decoded [] { phase := .beforeUtf8Mark, held := octets }
  else
    let content := if utf8Mark.isPrefixOf octets then octets.drop 3 else octets
    match feedSettled .utf8 final content with
    | .broken runes f => .broken (if runes.head? = some markRune then runes.tail else runes) f
    | fed => fed

/-- Decodes from a byte-order mark on. Without a mark the octets are read in
little-endian order: a fault at their very start is reported, any content is
`unmarked`, and an unfinished unit waits. -/
def feedOrderMark (wide : Wide) (held chunk : Octets) (final : Bool) : Fed :=
  let octets := held ++ chunk
  match wide.orderOf octets with
  | some order => feedSettled (wide.codec order) final (octets.drop wide.size)
  | none =>
    let p := (wide.codec .little).pass final octets
    match p.runes, p.fault with
    | [], none => .decoded [] { phase := .beforeOrderMark wide, held := octets }
    | [], some f => .broken [] f
    | _ :: _, none => .unmarked wide { phase := .beforeOrderMark wide, held }
    | _ :: _, some _ => .unmarked wide { phase := .beforeOrderMark wide }

/-- Feeds a decoder one chunk; `final` tells that nothing follows it. -/
def feed (d : Decoder) (chunk : Octets) (final : Bool) : Fed :=
  match d.phase with
  | .settled codec => feedSettled codec final (d.held ++ chunk)
  | .beforeUtf8Mark => feedUtf8Mark final (d.held ++ chunk)
  | .beforeOrderMark wide => feedOrderMark wide d.held chunk final

end Decoder

/-- The runes that feeding a chunk has yielded. -/
def Fed.runes : Fed → Text
  | .decoded runes _ => runes
  | .broken runes _ => runes
  | .unmarked _ _ => []

/-- The octets held back after a chunk has been fed. -/
def Fed.held : Fed → Octets
  | .decoded _ next => next.held
  | .broken _ _ => []
  | .unmarked _ next => next.held

namespace Decoder

theorem feedSettled_length (codec : Codec) (final : Bool) (octets : Octets) :
    (feedSettled codec final octets).runes.length +
      (feedSettled codec final octets).held.length ≤ octets.length := by
  have := codec.pass_length final octets
  unfold feedSettled
  dsimp only
  split <;> simp only [Fed.runes, Fed.held, List.length_nil] <;> omega

/-- Each rune takes at least one octet, whether it was held back or just fed. -/
theorem feed_length (d : Decoder) (chunk : Octets) (final : Bool) :
    (d.feed chunk final).runes.length + (d.feed chunk final).held.length ≤
      d.held.length + chunk.length := by
  rw [← List.length_append]
  unfold feed
  split
  · exact feedSettled_length ..
  · unfold feedUtf8Mark
    split
    · simp [Fed.runes, Fed.held]
    · have h := feedSettled_length .utf8 final
        (if utf8Mark.isPrefixOf (d.held ++ chunk) then (d.held ++ chunk).drop 3
          else d.held ++ chunk)
      have hle : (if utf8Mark.isPrefixOf (d.held ++ chunk) then (d.held ++ chunk).drop 3
          else d.held ++ chunk).length ≤ (d.held ++ chunk).length := by
        split <;> simp
      dsimp only
      generalize feedSettled Codec.utf8 final _ = fed at h ⊢
      cases fed with
      | decoded => exact Nat.le_trans h hle
      | unmarked => exact Nat.le_trans h hle
      | broken runes f =>
        refine Nat.le_trans ?_ (Nat.le_trans h hle)
        simp only [Fed.runes, Fed.held, List.length_nil, Nat.add_zero]
        split <;> simp
  · next wide _ =>
    unfold feedOrderMark
    dsimp only
    split
    · refine Nat.le_trans (feedSettled_length ..) ?_
      simp
    · split <;> simp [Fed.runes, Fed.held]

end Decoder

end SourceNotes.Charset
