/-
What a reader delivers in each character set.

`Charset.decode` tells what complete octets stand for, with or without a mark. A reader takes them
in chunks and finds the mark only when enough of them have come, yet what it has to deliver is
what `decode` tells (`Reader.exists_delivers`). There are two exceptions. Content that needs a mark
and has none is decoded by no reader (`Charset.Unmarked`). And where marked UTF-8 is at fault in
the chunk in which its mark is recognised, a second mark at the start of the text goes with the
first (`Charset.Yields`).

* **`Charset.Feeds`** — what feeding a decoder can lead to, case by case;
* **`Charset.feeds_feed`** — a decoder that has not found the codec yet, fed one chunk more;
* **`Reader.Unopened.exists_delivers`** — by the chunks that are still to be taken.
-/
import SourceNotes.Proofs.Reader.Delivers
import SourceNotes.Proofs.Reader.Marked

namespace SourceNotes

open Charset

namespace Charset

/-- What complete octets stand for in a codec. -/
def Codec.read (k : Codec) (s : Octets) : Outlook :=
  ⟨(k.pass true s).runes, (k.pass true s).fault⟩

/-- Behind octets that stand for a text the reading begins afresh. -/
theorem Codec.Decodes.read_append {k : Codec} {s : Octets} {text : Text} (h : k.Decodes s text)
    (u : Octets) : k.read (s ++ u) = ⟨text ++ (k.read u).runes, (k.read u).fault⟩ := by
  obtain ⟨rfl, hfault⟩ := h
  have hpass : k.pass true s = ⟨(k.pass true s).runes, (k.pass true s).rest, none⟩ := by
    rw [← hfault]
  rw [Codec.read, Codec.pass_append k true (Codec.pass_false_of_pass_true hpass), List.nil_append]
  rfl

/-- Octets that may yet become the mark of UTF-8. -/
def awaitsUtf8Mark (s : Octets) : Bool := s.length < 3 && s.isPrefixOf utf8Mark

/-- The octets behind the mark of UTF-8, or all of them if they do not begin with it. -/
def behindUtf8Mark (s : Octets) : Octets := if utf8Mark.isPrefixOf s then s.drop 3 else s

/-- What complete octets stand for. Where a mark is due, its first octets alone are no text, and
octets that do not begin with one are read in little-endian order. -/
def decode : Charset → Octets → Outlook
  | .plain k, s => k.read s
  | .utf8Marked, s =>
    if awaitsUtf8Mark s then ⟨[], none⟩ else Codec.utf8.read (behindUtf8Mark s)
  | .wideMarked w, s =>
    match w.orderOf s with
    | some order => (w.codec order).read (s.drop w.size)
    | none => (w.codec .little).read s

/-- The octets need a mark, have none, and begin with a rune all the same. -/
def Unmarked : Charset → Octets → Prop
  | .wideMarked w, s => w.orderOf s = none ∧ ((w.codec .little).read s).runes ≠ []
  | _, _ => False

/-- What a reader may find in octets: what they stand for, in marked UTF-8 with a fault perhaps
without a second mark. -/
def Yields (charset : Charset) (s : Octets) (o : Outlook) : Prop :=
  charset.decode s = o ∨
    charset = .utf8Marked ∧ o.fault ≠ none ∧ charset.decode s = ⟨markRune :: o.runes, o.fault⟩

theorem Yields.fault_eq {charset : Charset} {s : Octets} {o : Outlook} (h : charset.Yields s o) :
    o.fault = (charset.decode s).fault := by
  rcases h with h | ⟨-, -, h⟩ <;> rw [h]

/-! ### Marks in longer and shorter octets -/

theorem isPrefixOf_append_of_length {p s : Octets} (h : p.length ≤ s.length) (u : Octets) :
    p.isPrefixOf (s ++ u) = p.isPrefixOf s := by
  rw [Bool.eq_iff_iff, List.isPrefixOf_iff_prefix, List.isPrefixOf_iff_prefix]
  constructor
  · intro hp
    exact List.prefix_of_prefix_length_le hp (List.prefix_append s u) h
  · intro hp
    exact hp.trans (List.prefix_append s u)

theorem Wide.orderOf_append {w : Wide} {s : Octets} (h : w.size ≤ s.length) (u : Octets) :
    w.orderOf (s ++ u) = w.orderOf s := by
  have hmark (order : ByteOrder) :
      (w.mark order).isPrefixOf (s ++ u) = (w.mark order).isPrefixOf s := by
    apply isPrefixOf_append_of_length
    rw [w.length_mark]
    exact h
  rw [orderOf, orderOf, hmark, hmark]

theorem Wide.size_le_of_orderOf {w : Wide} {s : Octets} {order : ByteOrder}
    (h : w.orderOf s = some order) : w.size ≤ s.length := by
  refine Nat.le_of_not_lt fun hlt => ?_
  rw [w.orderOf_of_short hlt] at h
  cases h

/-- Octets that are no beginning of a mark stay so, and more octets leave the mark as it is. -/
theorem behindUtf8Mark_append {s : Octets} (h : awaitsUtf8Mark s = false) (u : Octets) :
    awaitsUtf8Mark (s ++ u) = false ∧ behindUtf8Mark (s ++ u) = behindUtf8Mark s ++ u := by
  by_cases hlen : 3 ≤ s.length
  · constructor
    · have hlong : ¬ (s ++ u).length < 3 := by
        rw [List.length_append]
        omega
      rw [awaitsUtf8Mark, decide_eq_false hlong, Bool.false_and]
    · rw [behindUtf8Mark, behindUtf8Mark, isPrefixOf_append_of_length (p := utf8Mark) hlen]
      split
      · exact List.drop_append_of_le_length hlen
      · rfl
  · -- Too short for a mark and no beginning of one.
    have hno : ¬ s <+: utf8Mark := by
      intro hs
      have hshort : s.length < 3 := by omega
      simp [awaitsUtf8Mark, hshort, List.isPrefixOf_iff_prefix.2 hs] at h
    constructor
    · rw [awaitsUtf8Mark, Bool.and_eq_false_iff]
      right
      rw [Bool.eq_false_iff]
      intro hp
      exact hno ((List.prefix_append s u).trans (List.isPrefixOf_iff_prefix.1 hp))
    · have hmark (t : Octets) : utf8Mark.isPrefixOf (s ++ t) = false := by
        rw [Bool.eq_false_iff]
        intro hp
        apply hno
        apply List.prefix_of_prefix_length_le (List.prefix_append s t)
          (List.isPrefixOf_iff_prefix.1 hp)
        show s.length ≤ 3
        omega
      have hmark₀ := hmark []
      rw [List.append_nil] at hmark₀
      simp [behindUtf8Mark, hmark, hmark₀]

/-- Once the octets are no beginning of a mark, more octets go to the text behind it. -/
theorem decode_utf8Marked_append {s : Octets} (h : awaitsUtf8Mark s = false) (u : Octets) :
    Charset.utf8Marked.decode (s ++ u) = Codec.utf8.read (behindUtf8Mark s ++ u) := by
  obtain ⟨hawaits, hbehind⟩ := behindUtf8Mark_append h u
  rw [decode, hawaits, hbehind]
  rfl

/-- Octets that a decoder can say something about are as long as a mark. -/
theorem Wide.size_le_of_pass {w : Wide} {s : Octets} {p : Pass}
    (hpass : (w.codec .little).pass false s = p) (h : p.runes ≠ [] ∨ p.fault ≠ none) :
    w.size ≤ s.length := by
  refine Nat.le_of_not_lt fun hlt => ?_
  rw [w.pass_of_short .little hlt] at hpass
  subst hpass
  simp at h

/-- Runes that have been found stay found when more octets follow. -/
theorem Codec.runes_read_append_ne_nil {k : Codec} {s left : Octets} {runes : Text}
    {fault : Option Fault} (hpass : k.pass false s = ⟨runes, left, fault⟩) (h : runes ≠ [])
    (u : Octets) : (k.read (s ++ u)).runes ≠ [] := by
  cases fault with
  | none =>
    rw [Codec.read, Codec.pass_append k true hpass]
    exact List.append_ne_nil_of_left_ne_nil h _
  | some f =>
    rw [Codec.read, Codec.pass_append_of_fault k true hpass]
    exact h

/-- An encoded text stands for that text, and has its mark. -/
theorem decode_encode {charset : Charset} {order : ByteOrder} {x : Text} {octets : Octets}
    (h : charset.encode order x = some octets) :
    charset.decode octets = ⟨x, none⟩ ∧ ¬ charset.Unmarked octets := by
  have hread {k : Codec} {content : Octets} (hcontent : k.encode x = some content) :
      k.read content = ⟨x, none⟩ := by
    obtain ⟨hruns, hfault⟩ := Codec.decodes_encode hcontent
    rw [Codec.read, hruns, hfault]
  cases charset with
  | plain k => exact ⟨hread h, id⟩
  | utf8Marked =>
    obtain ⟨content, hcontent, rfl⟩ := Option.map_eq_some_iff.1 h
    refine ⟨?_, id⟩
    rw [decode_utf8Marked_append (by decide)]
    exact hread hcontent
  | wideMarked w =>
    obtain ⟨content, hcontent, rfl⟩ := Option.map_eq_some_iff.1 h
    have horder := w.orderOf_mark order content
    constructor
    · rw [decode, horder, ← w.length_mark order, List.drop_left]
      exact hread hcontent
    · rintro ⟨hnone, -⟩
      rw [horder] at hnone
      cases hnone

/-! ### Feeding a decoder that has not found its codec yet -/

/-- What comes of feeding `chunk` to a decoder that holds `held`, with `rest` behind the chunk. -/
inductive Feeds (charset : Charset) (held chunk rest : Octets) : Fed → Prop
  /-- The mark may yet come. -/
  | hold (hchunk : chunk ≠ []) :
    Feeds charset held chunk rest
      (.decoded [] ⟨(Decoder.ofCharset charset).phase, held ++ chunk⟩)
  /-- The codec is found, and decodes all that is left. -/
  | settle {k : Codec} {runes : Text} {left : Octets} (hchunk : chunk ≠ [])
      (hdecode : charset.decode (held ++ (chunk ++ rest)) =
        ⟨runes ++ (k.read (left ++ rest)).runes, (k.read (left ++ rest)).fault⟩) :
    Feeds charset held chunk rest (.decoded runes ⟨.settled k, left⟩)
  /-- The octets have come to their end. -/
  | finish {runes : Text} {next : Decoder} (hchunk : chunk = [])
      (hdecode : charset.decode (held ++ (chunk ++ rest)) = ⟨runes, none⟩) :
    Feeds charset held chunk rest (.decoded runes next)
  /-- The octets are at fault. -/
  | fail {runes : Text} {f : Fault}
      (hyields : charset.Yields (held ++ (chunk ++ rest)) ⟨runes, some f⟩) :
    Feeds charset held chunk rest (.broken runes f)

variable {charset : Charset} {held chunk rest content : Octets} {k : Codec}

/-- A codec that has been found meets a fault, comes to the end, or leaves octets over that go
before the rest. -/
theorem feedSettled_cases (k : Codec) (content : Octets) (hend : chunk = [] → rest = []) :
    (∃ runes f, Decoder.feedSettled k chunk.isEmpty content = .broken runes f ∧
      k.read (content ++ rest) = ⟨runes, some f⟩) ∨
    (∃ runes next, chunk = [] ∧
      Decoder.feedSettled k chunk.isEmpty content = .decoded runes next ∧
      k.read (content ++ rest) = ⟨runes, none⟩) ∨
    ∃ runes left, chunk ≠ [] ∧
      Decoder.feedSettled k chunk.isEmpty content = .decoded runes ⟨.settled k, left⟩ ∧
      k.read (content ++ rest) =
        ⟨runes ++ (k.read (left ++ rest)).runes, (k.read (left ++ rest)).fault⟩ := by
  unfold Decoder.feedSettled
  rcases chunk with _ | ⟨b, chunk⟩
  · -- What is at hand is all there is.
    rw [hend rfl, List.append_nil, List.isEmpty_nil, Codec.read]
    rcases k.pass true content with ⟨runes, left, fault⟩
    cases fault with
    | none => exact .inr (.inl ⟨runes, _, rfl, rfl, rfl⟩)
    | some f => exact .inl ⟨runes, f, rfl, rfl⟩
  · rw [List.isEmpty_cons, Codec.read]
    rcases hp : k.pass false content with ⟨runes, left, fault⟩
    cases fault with
    | none =>
      refine .inr (.inr ⟨runes, left, List.cons_ne_nil _ _, rfl, ?_⟩)
      rw [Codec.pass_append k true hp]
      rfl
    | some f =>
      refine .inl ⟨runes, f, rfl, ?_⟩
      rw [Codec.pass_append_of_fault k true hp]

/-- Once the codec is found, feeding decodes with it. -/
theorem feeds_feedSettled (hend : chunk = [] → rest = [])
    (hdecode : charset.decode (held ++ (chunk ++ rest)) = k.read (content ++ rest)) :
    Feeds charset held chunk rest (Decoder.feedSettled k chunk.isEmpty content) := by
  rcases feedSettled_cases k content hend with ⟨runes, f, hfed, hread⟩ |
    ⟨runes, next, hchunk, hfed, hread⟩ | ⟨runes, left, hchunk, hfed, hread⟩
  · rw [hfed]
    exact .fail (.inl (hdecode.trans hread))
  · rw [hfed]
    exact .finish hchunk (hdecode.trans hread)
  · rw [hfed]
    exact .settle hchunk (hdecode.trans hread)

theorem feedUtf8Mark_of_awaits {final : Bool} {octets : Octets}
    (h : awaitsUtf8Mark octets = true) :
    Decoder.feedUtf8Mark final octets = .decoded [] ⟨.beforeUtf8Mark, octets⟩ :=
  if_pos h

theorem feedUtf8Mark_of_not_awaits {final : Bool} {octets : Octets}
    (h : awaitsUtf8Mark octets = false) :
    Decoder.feedUtf8Mark final octets =
      match Decoder.feedSettled .utf8 final (behindUtf8Mark octets) with
      | .broken runes f => .broken (if runes.head? = some markRune then runes.tail else runes) f
      | fed => fed := by
  have hnot : ¬ (decide (octets.length < 3) && octets.isPrefixOf utf8Mark) = true := by
    rw [← awaitsUtf8Mark, h]
    exact Bool.false_ne_true
  exact if_neg hnot

theorem feeds_feedUtf8Mark (hend : chunk = [] → rest = []) :
    Feeds .utf8Marked held chunk rest
      (Decoder.feedUtf8Mark chunk.isEmpty (held ++ chunk)) := by
  have hoctets : held ++ (chunk ++ rest) = held ++ chunk ++ rest := (List.append_assoc ..).symm
  cases hawaits : awaitsUtf8Mark (held ++ chunk) with
  | true =>
    rw [feedUtf8Mark_of_awaits hawaits]
    by_cases hchunk : chunk = []
    · apply Feeds.finish hchunk
      rw [hoctets, hend hchunk, List.append_nil, decode, if_pos hawaits]
    · exact .hold hchunk
  | false =>
    have hdecode : Charset.utf8Marked.decode (held ++ (chunk ++ rest)) =
        Codec.utf8.read (behindUtf8Mark (held ++ chunk) ++ rest) := by
      rw [hoctets, decode_utf8Marked_append hawaits]
    rw [feedUtf8Mark_of_not_awaits hawaits]
    rcases feedSettled_cases .utf8 (behindUtf8Mark (held ++ chunk)) hend with
      ⟨runes, f, hfed, hread⟩ | ⟨runes, next, hchunk, hfed, hread⟩ |
      ⟨runes, left, hchunk, hfed, hread⟩
    · rw [hfed]
      rw [hread] at hdecode
      apply Feeds.fail
      -- The runes before the fault are looked at afresh, so that a second mark is left out.
      rcases runes with _ | ⟨c, runes⟩
      · exact .inl hdecode
      · by_cases hc : c = markRune
        · subst hc
          refine .inr ⟨rfl, by simp, ?_⟩
          simpa using hdecode
        · left
          simpa [hc] using hdecode
    · rw [hfed]
      exact .finish hchunk (hdecode.trans hread)
    · rw [hfed]
      exact .settle hchunk (hdecode.trans hread)

theorem feeds_feedOrderMark {w : Wide} (hend : chunk = [] → rest = [])
    (hmarked : ¬ (Charset.wideMarked w).Unmarked (held ++ (chunk ++ rest))) :
    Feeds (.wideMarked w) held chunk rest
      (Decoder.feedOrderMark w held chunk chunk.isEmpty) := by
  have hoctets : held ++ (chunk ++ rest) = held ++ chunk ++ rest := (List.append_assoc ..).symm
  unfold Decoder.feedOrderMark
  dsimp only
  cases horder : w.orderOf (held ++ chunk) with
  | some order =>
    have hsize := Wide.size_le_of_orderOf horder
    apply feeds_feedSettled hend
    rw [hoctets, decode, Wide.orderOf_append hsize, horder, List.drop_append_of_le_length hsize]
  | none =>
    rcases chunk with _ | ⟨b, chunk⟩
    · -- Nothing follows, and the octets at hand are all there are.
      obtain rfl := hend rfl
      rw [List.append_nil] at horder
      simp only [List.append_nil, List.isEmpty_nil] at hmarked ⊢
      rcases hp : (w.codec .little).pass true held with ⟨runes, left, fault⟩
      have hdecode : (Charset.wideMarked w).decode (held ++ ([] ++ [])) = ⟨runes, fault⟩ := by
        rw [List.append_nil, List.append_nil, decode, horder, Codec.read, hp]
      rcases runes with _ | ⟨c, runes⟩
      · cases fault with
        | none => exact .finish rfl hdecode
        | some f => exact .fail (.inl hdecode)
      · refine absurd ⟨horder, ?_⟩ hmarked
        rw [Codec.read, hp]
        exact List.cons_ne_nil _ _
    · rw [hoctets] at hmarked
      simp only [List.isEmpty_cons]
      rcases hp : (w.codec .little).pass false (held ++ b :: chunk) with ⟨runes, left, fault⟩
      -- Runes or a fault are found only where the octets are long enough to have a mark.
      have horder' (h : runes ≠ [] ∨ fault ≠ none) :
          w.orderOf (held ++ b :: chunk ++ rest) = none := by
        rw [Wide.orderOf_append (Wide.size_le_of_pass hp h), horder]
      rcases runes with _ | ⟨c, runes⟩
      · cases fault with
        | none => exact .hold (List.cons_ne_nil _ _)
        | some f =>
          apply Feeds.fail
          left
          rw [hoctets, decode, horder' (.inr (by simp))]
          exact congrArg (fun p => Outlook.mk p.runes p.fault)
            (Codec.pass_append_of_fault _ true hp rest)
      · refine absurd ⟨horder' (.inl (by simp)), ?_⟩ hmarked
        exact Codec.runes_read_append_ne_nil hp (List.cons_ne_nil _ _) rest

/-- A decoder that has only held octets back so far, fed one chunk more. -/
theorem feeds_feed (hend : chunk = [] → rest = [])
    (hmarked : ¬ charset.Unmarked (held ++ (chunk ++ rest))) :
    Feeds charset held chunk rest
      (Decoder.feed ⟨(Decoder.ofCharset charset).phase, held⟩ chunk chunk.isEmpty) := by
  cases charset with
  | plain k =>
    apply feeds_feedSettled hend
    rw [decode, List.append_assoc]
  | utf8Marked => exact feeds_feedUtf8Mark hend
  | wideMarked w => exact feeds_feedOrderMark hend hmarked

end Charset

/-! ### Readers -/

namespace Reader

/-- A reader that has decoded nothing, with the octets `s` before it. -/
structure Unopened (charset : Charset) (s : Octets) (r : Reader) : Prop where
  phase_eq : r.decoder.phase = (Decoder.ofCharset charset).phase
  octets_eq : r.decoder.held ++ r.unread = s
  ahead_eq : r.ahead = []
  breakage_eq : r.breakage = none
  ended_eq : r.ended = false
  chunkSize_le : r.chunkSize ≤ maxChunk

variable {charset : Charset} {s : Octets} {r : Reader}

theorem takeChunk_of_decoded (hsize : r.chunkSize ≤ maxChunk) {runes : Text} {next : Decoder}
    (hfed : r.decoder.feed (r.unread.take r.chunkSize) (r.unread.take r.chunkSize).isEmpty =
      .decoded runes next) :
    takeChunk r = .ok () { r with
      unread := r.unread.drop r.chunkSize
      decoder := next
      ahead := r.ahead ++ runes
      ended := (r.unread.take r.chunkSize).isEmpty } := by
  unfold takeChunk
  rw [if_neg (Nat.not_lt.2 hsize)]
  simp only [hfed]

theorem takeChunk_of_broken (hsize : r.chunkSize ≤ maxChunk) {runes : Text} {f : Fault}
    (hfed : r.decoder.feed (r.unread.take r.chunkSize) (r.unread.take r.chunkSize).isEmpty =
      .broken runes f) :
    takeChunk r = .ok () { r with
      unread := r.unread.drop r.chunkSize
      decoder := { r.decoder with held := [] }
      ahead := r.ahead ++ runes
      ended := (r.unread.take r.chunkSize).isEmpty
      breakage := some { fault := f, line := r.position.line } } := by
  unfold takeChunk
  rw [if_neg (Nat.not_lt.2 hsize)]
  simp only [hfed]

/-- An empty chunk is the last one. -/
theorem drop_eq_nil_of_take (h : r.unread.take r.chunkSize = []) :
    r.unread.drop r.chunkSize = [] := by
  have hpos := r.chunkSize_pos
  rcases List.take_eq_nil_iff.1 h with hzero | hnil
  · omega
  · rw [hnil, List.drop_nil]

theorem Unopened.octets_chunk (h : Unopened charset s r) :
    r.decoder.held ++ (r.unread.take r.chunkSize ++ r.unread.drop r.chunkSize) = s := by
  rw [List.take_append_drop]
  exact h.octets_eq

theorem Unopened.decoder_eq (h : Unopened charset s r) :
    r.decoder = ⟨(Decoder.ofCharset charset).phase, r.decoder.held⟩ := by
  rw [← h.phase_eq]

/-- A reader that holds a chunk back has decoded nothing, and has fewer octets to take. -/
theorem Unopened.hold (h : Unopened charset s r) (hchunk : r.unread.take r.chunkSize ≠ []) :
    (r.unread.drop r.chunkSize).length < r.unread.length ∧
      Unopened charset s { r with
        unread := r.unread.drop r.chunkSize
        decoder := ⟨(Decoder.ofCharset charset).phase,
          r.decoder.held ++ r.unread.take r.chunkSize⟩
        ahead := r.ahead ++ []
        ended := (r.unread.take r.chunkSize).isEmpty } := by
  constructor
  · have hpos := r.chunkSize_pos
    have hne : r.unread ≠ [] := by
      intro hnil
      rw [hnil, List.take_nil] at hchunk
      exact hchunk rfl
    have := List.length_pos_iff.2 hne
    rw [List.length_drop]
    omega
  · exact ⟨rfl, (List.append_assoc ..).trans h.octets_chunk, by simp [h.ahead_eq], h.breakage_eq,
      List.isEmpty_eq_false_iff.2 hchunk, h.chunkSize_le⟩

/-- A fault ends what is to be delivered. -/
theorem Unopened.delivers_of_broken (h : Unopened charset s r) {runes : Text} {f : Fault}
    (hfed : r.decoder.feed (r.unread.take r.chunkSize) (r.unread.take r.chunkSize).isEmpty =
      .broken runes f) : r.Delivers ⟨runes, some f⟩ := by
  have htake := takeChunk_of_broken h.chunkSize_le hfed
  refine .later h.ahead_eq h.breakage_eq h.ended_eq htake (.spent ?_ ?_)
  · exact .inl (by simp)
  · simp [h.ahead_eq]

/-- Behind the last chunk nothing is to be delivered. -/
theorem Unopened.delivers_of_finished (h : Unopened charset s r) {runes : Text} {next : Decoder}
    (hchunk : r.unread.take r.chunkSize = [])
    (hfed : r.decoder.feed (r.unread.take r.chunkSize) (r.unread.take r.chunkSize).isEmpty =
      .decoded runes next) : r.Delivers ⟨runes, none⟩ := by
  have htake := takeChunk_of_decoded h.chunkSize_le hfed
  refine .later h.ahead_eq h.breakage_eq h.ended_eq htake (.spent ?_ ?_)
  · exact .inr (by rw [hchunk]; rfl)
  · simp [h.ahead_eq, h.breakage_eq]

/-- Once the codec is found, it tells what is to be delivered. -/
theorem Unopened.delivers_of_settled (h : Unopened charset s r) {k : Codec} {runes : Text}
    {left : Octets} (hchunk : r.unread.take r.chunkSize ≠ [])
    (hfed : r.decoder.feed (r.unread.take r.chunkSize) (r.unread.take r.chunkSize).isEmpty =
      .decoded runes ⟨.settled k, left⟩) :
    r.Delivers ⟨runes ++ (k.read (left ++ r.unread.drop r.chunkSize)).runes,
      (k.read (left ++ r.unread.drop r.chunkSize)).fault⟩ := by
  have htake := takeChunk_of_decoded h.chunkSize_le hfed
  refine .later h.ahead_eq h.breakage_eq h.ended_eq htake (.settled ⟨rfl, h.chunkSize_le⟩ ?_)
  have hgoes : (r.unread.take r.chunkSize).isEmpty = false := List.isEmpty_eq_false_iff.2 hchunk
  simp [outlook, undecoded, h.ahead_eq, h.breakage_eq, hgoes, Codec.read]

/-- A reader at the start of its octets has what they stand for to deliver. -/
theorem Unopened.exists_delivers (h : Unopened charset s r) (hmarked : ¬ charset.Unmarked s) :
    ∃ o, charset.Yields s o ∧ r.Delivers o := by
  -- By the octets to be taken: a chunk is held back, or the codec is found and the rest is known.
  induction hn : r.unread.length using Nat.strongRecOn generalizing r with
  | ind n ih =>
    subst hn
    have hs := h.octets_chunk
    have hfeeds : Feeds charset r.decoder.held (r.unread.take r.chunkSize)
        (r.unread.drop r.chunkSize)
        (r.decoder.feed (r.unread.take r.chunkSize) (r.unread.take r.chunkSize).isEmpty) := by
      rw [h.decoder_eq]
      exact feeds_feed drop_eq_nil_of_take (by rwa [hs])
    cases hfed : r.decoder.feed (r.unread.take r.chunkSize) (r.unread.take r.chunkSize).isEmpty with
    | unmarked w next =>
      rw [hfed] at hfeeds
      cases hfeeds
    | broken runes f =>
      rw [hfed] at hfeeds
      cases hfeeds with
      | fail hyields =>
        rw [hs] at hyields
        exact ⟨_, hyields, h.delivers_of_broken hfed⟩
    | decoded runes next =>
      rw [hfed] at hfeeds
      cases hfeeds with
      | hold hchunk =>
        obtain ⟨hlt, hnext⟩ := h.hold hchunk
        obtain ⟨o, hyields, hdel⟩ := ih _ hlt hnext rfl
        exact ⟨o, hyields, .later h.ahead_eq h.breakage_eq h.ended_eq
          (takeChunk_of_decoded h.chunkSize_le hfed) hdel⟩
      | settle hchunk hdecode =>
        rw [hs] at hdecode
        exact ⟨_, .inl hdecode, h.delivers_of_settled hchunk hfed⟩
      | finish hchunk hdecode =>
        rw [hs] at hdecode
        exact ⟨_, .inl hdecode, h.delivers_of_finished hchunk hfed⟩

theorem unopened_ofCharset (charset : Charset) (octets : Octets) :
    Unopened charset octets (ofCharset charset octets) := by
  refine ⟨rfl, ?_, rfl, rfl, rfl, (by decide : 4096 ≤ maxChunk)⟩
  cases charset <;> rfl

theorem exists_unopened (octets : Octets) {charsetName : Text} {maxPeek chunkSize : Int}
    (hname : Charset.ofName charsetName = .ok charset) (hpeek : 1 ≤ maxPeek)
    (hchunk : chunkSize ≤ maxChunk) :
    ∃ r, ofOctets octets charsetName maxPeek chunkSize = .ok r ∧ Unopened charset octets r := by
  unfold ofOctets
  rw [if_neg (by omega), hname]
  refine ⟨_, rfl, rfl, ?_, rfl, rfl, rfl, ?_⟩
  · cases charset <;> rfl
  · have hone : (1 : Int) ≤ maxChunk := by decide
    show (max chunkSize 1).toNat ≤ maxChunk
    omega

/-- A reader just opened has what its octets stand for to deliver, unless they lack a mark. -/
theorem exists_delivers {octets : Octets} {charsetName : Text} {maxPeek chunkSize : Int}
    (hname : Charset.ofName charsetName = .ok charset) (hpeek : 1 ≤ maxPeek)
    (hchunk : chunkSize ≤ maxChunk) (hmarked : ¬ charset.Unmarked octets) :
    ∃ r o, ofOctets octets charsetName maxPeek chunkSize = .ok r ∧ charset.Yields octets o ∧
      r.Delivers o := by
  obtain ⟨r, hr, hunopened⟩ := exists_unopened octets hname hpeek hchunk
  obtain ⟨o, hyields, hdel⟩ := hunopened.exists_delivers hmarked
  exact ⟨r, o, hr, hyields, hdel⟩

end Reader

end SourceNotes
