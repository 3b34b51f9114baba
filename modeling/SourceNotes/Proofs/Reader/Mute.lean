/-
Readers that show nothing.

A reader whose chunks are too large shows none of its runes, and neither does one whose octets
need a mark and have none. Every other reader has something to deliver, if only the end of the
text.

* **`Reader.Mute`** — every look for a rune fails;
* **`Charset.feedOrderMark_unmarked`**, **`Reader.Unopened.mute`** — octets without their mark;
* **`Reader.delivers_or_mute`** — a reader just opened delivers something or shows nothing.
-/
import SourceNotes.Proofs.Reader.Charsets

namespace SourceNotes

open Charset

namespace Charset

variable {held chunk rest : Octets} {w : Wide}

/-- Fed with octets that lack their mark, a decoder says so or waits for more. -/
theorem feedOrderMark_unmarked (hend : chunk = [] → rest = [])
    (hunmarked : (Charset.wideMarked w).Unmarked (held ++ (chunk ++ rest))) :
    (∃ next, Decoder.feedOrderMark w held chunk chunk.isEmpty = .unmarked w next) ∨
      chunk ≠ [] ∧ Decoder.feedOrderMark w held chunk chunk.isEmpty =
        .decoded [] ⟨.beforeOrderMark w, held ++ chunk⟩ := by
  obtain ⟨hnone, hrunes⟩ := hunmarked
  rw [← List.append_assoc] at hnone hrunes
  have horder : w.orderOf (held ++ chunk) = none := by
    cases horder : w.orderOf (held ++ chunk) with
    | none => rfl
    | some order =>
      rw [Wide.orderOf_append (Wide.size_le_of_orderOf horder), horder] at hnone
      cases hnone
  rcases hp : (w.codec .little).pass chunk.isEmpty (held ++ chunk) with ⟨runes, left, fault⟩
  unfold Decoder.feedOrderMark
  simp only [horder, hp]
  rcases runes with _ | ⟨c, runes⟩
  · -- With no rune in the octets at hand, more must follow, and they are not at fault.
    rcases chunk with _ | ⟨b, chunk⟩
    · obtain rfl := hend rfl
      have hwhole : (w.codec .little).pass true (held ++ []) = ⟨[], left, fault⟩ := hp
      rw [List.append_nil, Codec.read, hwhole] at hrunes
      exact absurd rfl hrunes
    · cases fault with
      | none => exact .inr ⟨List.cons_ne_nil _ _, rfl⟩
      | some f =>
        rw [Codec.read, Codec.pass_append_of_fault _ true hp] at hrunes
        exact absurd rfl hrunes
  · cases fault with
    | none => exact .inl ⟨_, rfl⟩
    | some f => exact .inl ⟨_, rfl⟩

end Charset

namespace Reader

/-- Whatever is looked for, there is no answer. -/
def Mute (r : Reader) : Prop := ∀ n, 0 < n → ∃ e r', look n r = .error e r'

variable {charset : Charset} {s octets : Octets} {r : Reader} {charsetName : Text}
  {maxPeek chunkSize : Int}

theorem mute_of_fill (h : ∀ n, 0 < n → ∃ e r', r.fill n = .error e r') : r.Mute := by
  intro n hn
  unfold look
  by_cases hlimit : r.maxPeek < n
  · exact ⟨_, _, if_pos hlimit⟩
  · obtain ⟨e, r', hfill⟩ := h n hn
    exact ⟨e, r', by rw [if_neg hlimit, hfill]⟩

theorem Blocked.mute (h : r.Blocked) : r.Mute := mute_of_fill fun _ hn => ⟨_, _, h.fill_eq hn⟩

theorem takeChunk_of_unmarked (hsize : r.chunkSize ≤ maxChunk) {w : Wide} {next : Decoder}
    (hfed : r.decoder.feed (r.unread.take r.chunkSize) (r.unread.take r.chunkSize).isEmpty =
      .unmarked w next) :
    takeChunk r = .error (.unmarked w)
      { r with unread := r.unread.drop r.chunkSize, decoder := next } := by
  unfold takeChunk
  rw [if_neg (Nat.not_lt.2 hsize)]
  simp only [hfed]

/-- A reader of octets that lack their mark fails in the chunk that shows it. -/
theorem Unopened.mute (h : Unopened charset s r) (hunmarked : charset.Unmarked s) : r.Mute := by
  refine mute_of_fill fun n hn => ?_
  -- By the octets to be taken, as for readers that have something to deliver.
  induction hlen : r.unread.length using Nat.strongRecOn generalizing r with
  | ind len ih =>
    subst hlen
    cases charset with
    | plain k => exact hunmarked.elim
    | utf8Marked => exact hunmarked.elim
    | wideMarked w =>
      have hoctets := h.octets_chunk
      have hfeed (chunk : Octets) : r.decoder.feed chunk chunk.isEmpty =
          Decoder.feedOrderMark w r.decoder.held chunk chunk.isEmpty := by
        rw [h.decoder_eq]
        rfl
      rcases feedOrderMark_unmarked drop_eq_nil_of_take (by rwa [hoctets]) with
        ⟨next, hfed⟩ | ⟨hchunk, hfed⟩
      · have htake := takeChunk_of_unmarked h.chunkSize_le ((hfeed _).trans hfed)
        exact ⟨_, _, fill_of_takeChunk_error h.ahead_eq h.breakage_eq h.ended_eq htake hn⟩
      · have htake := takeChunk_of_decoded h.chunkSize_le ((hfeed _).trans hfed)
        obtain ⟨hlt, hnext⟩ := h.hold hchunk
        rw [fill_of_takeChunk h.ahead_eq h.breakage_eq h.ended_eq htake hn]
        exact ih _ hlt hnext rfl

/-- A reader with chunks that are too large can take none of them. -/
theorem exists_blocked (octets : Octets) (hname : Charset.ofName charsetName = .ok charset)
    (hpeek : 1 ≤ maxPeek) (hchunk : maxChunk < chunkSize) :
    ∃ r, ofOctets octets charsetName maxPeek chunkSize = .ok r ∧ r.Blocked := by
  unfold ofOctets
  rw [if_neg (by omega), hname]
  refine ⟨_, rfl, rfl, rfl, rfl, ?_⟩
  show maxChunk < (max chunkSize 1).toNat
  omega

/-- A reader just opened has something to deliver, or it shows nothing. -/
theorem delivers_or_mute (h : ofOctets octets charsetName maxPeek chunkSize = .ok r) :
    (∃ o, r.Delivers o) ∨ r.Mute := by
  have hpeek : 1 ≤ maxPeek := one_le_of_ofOctets h
  obtain ⟨charset, hname⟩ : ∃ charset, Charset.ofName charsetName = .ok charset := by
    unfold ofOctets at h
    rw [if_neg (by omega)] at h
    cases hname : Charset.ofName charsetName with
    | ok charset => exact ⟨charset, rfl⟩
    | error fault => rw [hname] at h; cases h
  by_cases hchunk : chunkSize ≤ maxChunk
  · obtain ⟨r', hr', hunopened⟩ := exists_unopened octets hname hpeek hchunk
    rw [h] at hr'
    cases hr'
    by_cases hunmarked : charset.Unmarked octets
    · exact .inr (hunopened.mute hunmarked)
    · obtain ⟨o, -, hdel⟩ := hunopened.exists_delivers hunmarked
      exact .inl ⟨o, hdel⟩
  · exact .inr (blocked_of_ofOctets h (Int.lt_of_not_ge hchunk)).mute

end Reader

end SourceNotes
