/-
Marked UTF-8 read as UTF-8.

A reader of marked UTF-8 answers like a reader of UTF-8 that is given the octets behind the mark,
whatever the chunks are. Two kinds of content are left out. Octets that end inside the mark are an
empty text to the one reader and at fault for the other. And where the first chunk begins with two
marks and is at fault, the reader loses the second mark: the runes before the fault are decoded
once more, without the first mark and yet with a look for one.

* **`utf8Step_eq_markRune`** — the rune of the mark is written in one way only;
* **`feedUtf8Mark_of_keeps`**, **`feedUtf8Mark_of_loses`** — a decoder at its first octets, as a
  decoder of what is behind one mark or behind two;
* **`Reader.Unopened.delivers_of_keeps`**, **`Reader.Unopened.delivers_of_loses`** — what a reader
  of marked UTF-8 has to deliver;
* **`Reader.answers_utf8Marked`** — its calls are answered like those of a reader of UTF-8.
-/
import SourceNotes.Proofs.Reader.Alike

namespace SourceNotes

open Charset

namespace Charset

/-! ### The rune of the mark -/

theorem ofNat_eq_markRune {n : Nat} (h : Char.ofNat n = markRune) : n = 0xFEFF := by
  have hmark : markRune.toNat = 0xFEFF := by decide
  by_cases hvalid : n.isValidChar
  · rw [Char.ofNat, dif_pos hvalid] at h
    exact (congrArg Char.toNat h).trans hmark
  · rw [Char.ofNat, dif_neg hvalid] at h
    cases h

theorem tailBits_lt {b : UInt8} (h : isTail b = true) : tailBits b < 0x40 := by
  simp only [isTail, Bool.and_eq_true, decide_eq_true_eq] at h
  unfold tailBits
  omega

theorem eq_of_tailBits {b : UInt8} {n : Nat} (h : isTail b = true) (hn : tailBits b = n) :
    b = UInt8.ofNat (n + 0x80) := by
  simp only [isTail, Bool.and_eq_true, decide_eq_true_eq] at h
  have hb : b.toNat = n + 0x80 := by
    unfold tailBits at hn
    omega
  rw [← hb, UInt8.ofNat_toNat]

theorem utf8Two_ne_markRune {b : UInt8} {s t : Octets} (hb : b < 0xE0) :
    utf8Two b s ≠ .rune markRune t := by
  intro h
  have hb' : b.toNat < 0xE0 := UInt8.lt_iff_toNat_lt.1 hb
  unfold utf8Two at h
  split at h
  · cases h
  · split at h
    · next htail =>
      have hbits := tailBits_lt htail
      have hn := ofNat_eq_markRune (Step.rune.inj h).1
      omega
    · cases h

theorem utf8Three_eq_markRune {b : UInt8} {s t : Octets} (hlow : 0xE0 ≤ b) (hhigh : b < 0xF0)
    (h : utf8Three b s = .rune markRune t) : b :: s = utf8Mark ++ t := by
  have hlow' : 0xE0 ≤ b.toNat := UInt8.le_iff_toNat_le.1 hlow
  have hhigh' : b.toNat < 0xF0 := UInt8.lt_iff_toNat_lt.1 hhigh
  unfold utf8Three at h
  split at h
  · cases h
  · split at h
    · cases h
    · split at h <;> cases h
  · next c d s =>
    split at h
    · next hok =>
      obtain ⟨hrune, rfl⟩ := Step.rune.inj h
      have hn := ofNat_eq_markRune hrune
      simp only [isSecondOfThree, Bool.and_eq_true] at hok
      obtain ⟨⟨⟨hc, -⟩, -⟩, hd⟩ := hok
      have hc' := tailBits_lt hc
      have hd' := tailBits_lt hd
      obtain rfl : b = 0xEF := UInt8.toNat_inj.1 (show b.toNat = 0xEF by omega)
      obtain rfl : c = 0xBB := eq_of_tailBits hc (n := 0x3B) (by omega)
      obtain rfl : d = 0xBF := eq_of_tailBits hd (n := 0x3F) (by omega)
      rfl
    · cases h

theorem utf8Four_ne_markRune {b : UInt8} {s t : Octets} (hb : 0xF0 ≤ b) :
    utf8Four b s ≠ .rune markRune t := by
  intro h
  have hb' : 0xF0 ≤ b.toNat := UInt8.le_iff_toNat_le.1 hb
  unfold utf8Four at h
  split at h
  · cases h
  · split at h <;> cases h
  · split at h <;> cases h
  · next c d e s =>
    split at h
    · next hok =>
      have hn := ofNat_eq_markRune (Step.rune.inj h).1
      simp only [isSecondOfFour, Bool.and_eq_true, Bool.or_eq_true, bne_iff_ne,
        decide_eq_true_eq] at hok
      obtain ⟨⟨⟨⟨hc, hlow⟩, -⟩, hd⟩, he⟩ := hok
      have hc' := tailBits_lt hc
      -- Four octets stand for nothing below 0x10000.
      rcases hlow with hne | hlow
      · simp only [ne_eq, ← UInt8.toNat_inj, UInt8.reduceToNat] at hne
        omega
      · unfold tailBits at hn
        omega
    · cases h

/-- No other octets than those of the mark stand for the rune of the mark. -/
theorem utf8Step_eq_markRune {b : UInt8} {s t : Octets} (h : utf8Step b s = .rune markRune t) :
    b :: s = utf8Mark ++ t := by
  unfold utf8Step at h
  split at h
  · next hb =>
    have hb' : b.toNat < 0x80 := UInt8.lt_iff_toNat_lt.1 hb
    have hn := ofNat_eq_markRune (Step.rune.inj h).1
    omega
  split at h
  · cases h
  split at h
  · next hb => exact absurd h (utf8Two_ne_markRune hb)
  split at h
  · next hlow hhigh => exact utf8Three_eq_markRune (UInt8.not_lt.1 hlow) hhigh h
  split at h
  · next hlow _ => exact absurd h (utf8Four_ne_markRune (UInt8.not_lt.1 hlow))
  · cases h

variable {final : Bool} {s : Octets}

/-- A mark is read as its rune where no mark is due. -/
theorem pass_utf8Mark_append (final : Bool) (s : Octets) :
    Codec.utf8.pass final (utf8Mark ++ s) =
      ⟨markRune :: (Codec.utf8.pass final s).runes, (Codec.utf8.pass final s).rest,
        (Codec.utf8.pass final s).fault⟩ :=
  Codec.pass_of_rune final rfl

theorem read_utf8Mark_append (s : Octets) :
    Codec.utf8.read (utf8Mark ++ s) =
      ⟨markRune :: (Codec.utf8.read s).runes, (Codec.utf8.read s).fault⟩ := by
  rw [Codec.read, pass_utf8Mark_append]
  rfl

/-- Octets that are read as the rune of the mark at first begin with the mark. -/
theorem utf8Mark_prefix_of_head? (h : (Codec.utf8.pass final s).runes.head? = some markRune) :
    utf8Mark <+: s := by
  rcases s with _ | ⟨b, s⟩
  · rw [Codec.pass] at h
    cases h
  · cases hstep : Codec.utf8.step b s with
    | rune c t =>
      rw [Codec.pass_of_rune final hstep] at h
      obtain rfl : c = markRune := Option.some.inj h
      exact ⟨t, (utf8Step_eq_markRune hstep).symm⟩
    | short f =>
      rw [Codec.pass_of_short final hstep] at h
      cases h
    | bad f =>
      rw [Codec.pass_of_bad final hstep] at h
      cases h
    | pair c d t => exact absurd hstep (utf8Step_ne_pair b s t c d)

/-! ### Chunks that begin with two marks -/

theorem awaitsUtf8Mark_append (s : Octets) : awaitsUtf8Mark (utf8Mark ++ s) = false :=
  (behindUtf8Mark_append (by decide) s).1

theorem behindUtf8Mark_utf8Mark_append (s : Octets) : behindUtf8Mark (utf8Mark ++ s) = s :=
  if_pos (List.isPrefixOf_iff_prefix.2 (List.prefix_append ..))

/-- Octets with a mark behind their mark, if they have one, begin with two marks. -/
theorem two_marks_of_prefix_behind (h : utf8Mark <+: behindUtf8Mark s) :
    utf8Mark ++ utf8Mark <+: s := by
  unfold behindUtf8Mark at h
  split at h
  · next hmark =>
    obtain ⟨t, rfl⟩ := List.isPrefixOf_iff_prefix.1 hmark
    exact (List.prefix_append_right_inj utf8Mark).2 h
  · next hmark => exact absurd (List.isPrefixOf_iff_prefix.2 h) hmark

/-- A fault behind the mark is one of all the octets. -/
theorem fault_pass_behindUtf8Mark (final : Bool) (s : Octets) :
    (Codec.utf8.pass final (behindUtf8Mark s)).fault = (Codec.utf8.pass final s).fault := by
  unfold behindUtf8Mark
  split
  · next hmark =>
    obtain ⟨t, rfl⟩ := List.isPrefixOf_iff_prefix.1 hmark
    rw [pass_utf8Mark_append]
    rfl
  · rfl

/-- Unless the octets begin with two marks and are at fault, what is behind the mark is decoded. -/
theorem feedUtf8Mark_of_keeps (hawaits : awaitsUtf8Mark s = false)
    (hkeeps : utf8Mark ++ utf8Mark <+: s → (Codec.utf8.pass final s).fault = none) :
    Decoder.feedUtf8Mark final s = Decoder.feedSettled .utf8 final (behindUtf8Mark s) := by
  rw [feedUtf8Mark_of_not_awaits hawaits, Decoder.feedSettled, fault_pass_behindUtf8Mark]
  cases hfault : (Codec.utf8.pass final s).fault with
  | none => rfl
  | some f =>
    have hhead : (Codec.utf8.pass final (behindUtf8Mark s)).runes.head? ≠ some markRune := by
      intro hhead
      have hnone := hkeeps (two_marks_of_prefix_behind (utf8Mark_prefix_of_head? hhead))
      rw [hfault] at hnone
      cases hnone
    dsimp only
    rw [if_neg hhead]

/-- Where the octets begin with two marks and are at fault, what is behind both is decoded. -/
theorem feedUtf8Mark_of_loses (hfault : (Codec.utf8.pass final s).fault ≠ none) :
    Decoder.feedUtf8Mark final (utf8Mark ++ (utf8Mark ++ s)) =
      Decoder.feedSettled .utf8 final s := by
  obtain ⟨f, hfault⟩ := Option.ne_none_iff_exists'.1 hfault
  rw [feedUtf8Mark_of_not_awaits (awaitsUtf8Mark_append _), behindUtf8Mark_utf8Mark_append]
  simp only [Decoder.feedSettled, pass_utf8Mark_append, hfault]
  rfl

/-- Unless the octets end inside the mark, they stand for what is behind it. -/
theorem decode_utf8Marked (hcut : s ≠ [0xEF] ∧ s ≠ [0xEF, 0xBB]) :
    Charset.utf8Marked.decode s = Codec.utf8.read (behindUtf8Mark s) := by
  cases hawaits : awaitsUtf8Mark s with
  | false =>
    have happend := decode_utf8Marked_append hawaits []
    rwa [List.append_nil, List.append_nil] at happend
  | true =>
    simp only [awaitsUtf8Mark, Bool.and_eq_true, decide_eq_true_eq,
      List.isPrefixOf_iff_prefix] at hawaits
    obtain ⟨hshort, hfront⟩ := hawaits
    have htake := List.prefix_iff_eq_take.1 hfront
    rcases s with _ | ⟨a, _ | ⟨b, _ | ⟨c, s⟩⟩⟩
    · rw [show behindUtf8Mark [] = [] from rfl, Codec.read, Codec.pass]
      rfl
    · exact absurd htake hcut.1
    · exact absurd htake hcut.2
    · simp only [List.length_cons] at hshort
      omega

/-- The second mark of the octets is lost: the first `n` of them begin with two marks and are at
fault. -/
def LosesMark (n : Nat) (s : Octets) : Prop :=
  utf8Mark ++ utf8Mark <+: s.take n ∧ (Codec.utf8.pass false (s.take n)).fault ≠ none

end Charset

namespace Reader

/-! ### What is to be delivered -/

variable {charset : Charset} {s : Octets} {r : Reader}

/-- Nothing is held back yet, or less than a mark is, by chunks as short as that or at the end. -/
def HoldsLittle (r : Reader) : Prop :=
  r.decoder.held = [] ∨ r.decoder.held.length < 3 ∧ (r.chunkSize < 3 ∨ r.unread = [])

/-- A codec that is found with the first chunk decodes its octets and all behind them. -/
theorem Unopened.delivers_of_feedSettled (h : Unopened charset s r) {k : Codec} {content : Octets}
    (hfeed : r.decoder.feed (r.unread.take r.chunkSize) (r.unread.take r.chunkSize).isEmpty =
      Decoder.feedSettled k (r.unread.take r.chunkSize).isEmpty content) :
    r.Delivers (k.read (content ++ r.unread.drop r.chunkSize)) := by
  rcases feedSettled_cases k content (r.drop_eq_nil_of_take) with ⟨runes, f, hfed, hread⟩ |
    ⟨runes, next, hchunk, hfed, hread⟩ | ⟨runes, left, hchunk, hfed, hread⟩
  · rw [hread]
    exact h.delivers_of_broken (hfeed.trans hfed)
  · rw [hread]
    exact h.delivers_of_finished hchunk (hfeed.trans hfed)
  · rw [hread]
    exact h.delivers_of_settled hchunk (hfeed.trans hfed)

theorem Unopened.feed_eq (h : Unopened .utf8Marked s r) :
    r.decoder.feed (r.unread.take r.chunkSize) (r.unread.take r.chunkSize).isEmpty =
      Decoder.feedUtf8Mark (r.unread.take r.chunkSize).isEmpty
        (r.decoder.held ++ r.unread.take r.chunkSize) := by
  rw [h.decoder_eq]
  rfl

/-- Only octets of the first chunk are long enough for two marks. -/
theorem Unopened.fault_of_keeps (h : Unopened .utf8Marked s r) (hheld : r.HoldsLittle)
    (hkeeps : ¬ LosesMark r.chunkSize s)
    (hmarks : utf8Mark ++ utf8Mark <+: r.decoder.held ++ r.unread.take r.chunkSize) :
    (Codec.utf8.pass (r.unread.take r.chunkSize).isEmpty
      (r.decoder.held ++ r.unread.take r.chunkSize)).fault = none := by
  rcases hheld with hnil | ⟨hshort, hsmall⟩
  · have hs := h.octets_eq
    rw [hnil, List.nil_append] at hs hmarks
    rw [hnil, List.nil_append, hs]
    rw [hs] at hmarks
    have hgoes : (s.take r.chunkSize).isEmpty = false := by
      rw [List.isEmpty_eq_false_iff]
      intro hempty
      rw [hempty] at hmarks
      cases List.prefix_nil.1 hmarks
    rw [hgoes]
    exact Classical.not_not.1 fun hfault => hkeeps ⟨hmarks, hfault⟩
  · have hlong := hmarks.length_le
    have hsix : (utf8Mark ++ utf8Mark).length = 6 := rfl
    rw [hsix, List.length_append, List.length_take] at hlong
    rcases hsmall with hsmall | hunread
    · omega
    · rw [hunread, List.length_nil] at hlong
      omega

/-- A reader of marked UTF-8 has what its octets stand for to deliver, unless it loses a mark. -/
theorem Unopened.delivers_of_keeps (h : Unopened .utf8Marked s r) (hheld : r.HoldsLittle)
    (hkeeps : ¬ LosesMark r.chunkSize s) : r.Delivers (Charset.utf8Marked.decode s) := by
  -- By the octets to be taken: as long as a mark may come, chunks are held back.
  induction hn : r.unread.length using Nat.strongRecOn generalizing r with
  | ind n ih =>
    subst hn
    have hs := h.octets_chunk
    rw [← List.append_assoc] at hs
    cases hawaits : awaitsUtf8Mark (r.decoder.held ++ r.unread.take r.chunkSize) with
    | true =>
      have hfed := h.feed_eq.trans (feedUtf8Mark_of_awaits hawaits)
      by_cases hchunk : r.unread.take r.chunkSize = []
      · rw [drop_eq_nil_of_take hchunk, List.append_nil] at hs
        rw [← hs, decode, if_pos hawaits]
        exact h.delivers_of_finished hchunk hfed
      · obtain ⟨hlt, hnext⟩ := h.hold hchunk
        have hshort : (r.decoder.held ++ r.unread.take r.chunkSize).length < 3 := by
          simp only [awaitsUtf8Mark, Bool.and_eq_true, decide_eq_true_eq] at hawaits
          exact hawaits.1
        have hsmall : r.chunkSize < 3 ∨ r.unread.drop r.chunkSize = [] := by
          rw [List.length_append, List.length_take] at hshort
          rw [List.drop_eq_nil_iff]
          omega
        exact .later h.ahead_eq h.breakage_eq h.ended_eq
          (takeChunk_of_decoded h.chunkSize_le hfed)
          (ih _ hlt hnext (.inr ⟨hshort, hsmall⟩) hkeeps rfl)
    | false =>
      rw [← hs, decode_utf8Marked_append hawaits]
      exact h.delivers_of_feedSettled
        (h.feed_eq.trans (feedUtf8Mark_of_keeps hawaits (h.fault_of_keeps hheld hkeeps)))

/-- A reader that loses a mark has to deliver what is behind both. -/
theorem Unopened.delivers_of_loses (h : Unopened .utf8Marked s r) (hheld : r.decoder.held = [])
    (hloses : LosesMark r.chunkSize s) : r.Delivers (Codec.utf8.read (s.drop 6)) := by
  obtain ⟨⟨t, hmarks⟩, hfault⟩ := hloses
  have hs := h.octets_eq
  rw [hheld, List.nil_append] at hs
  subst hs
  rw [List.append_assoc] at hmarks
  have hgoes : (r.unread.take r.chunkSize).isEmpty = false := by
    rw [← hmarks]
    rfl
  have hfeed := h.feed_eq
  rw [hgoes, hheld, List.nil_append, ← hmarks] at hfeed
  rw [← hmarks, pass_utf8Mark_append, pass_utf8Mark_append] at hfault
  rw [feedUtf8Mark_of_loses hfault] at hfeed
  have hdrop : r.unread.drop 6 = t ++ r.unread.drop r.chunkSize := by
    have hunread := List.take_append_drop r.chunkSize r.unread
    rw [← hmarks] at hunread
    exact congrArg (List.drop 6) hunread.symm
  rw [hdrop]
  apply h.delivers_of_feedSettled
  rw [hgoes, ← hmarks]
  exact hfeed

/-! ### Calls -/

variable {o : Outlook}

theorem answer_peek_one (hpeek : 1 ≤ r.maxPeek) :
    r.answer (.peek 1) =
      match r.fill 1 with
      | .ok () r => (.runes (r.ahead.take 1) ((r.ahead.take 1).length == 1), r)
      | .error e r => (.error e, r) := by
  rw [answer_peek, if_neg (by decide)]
  exact if_neg (Nat.not_lt.2 hpeek)

/-- A look for one rune shows the next one, or that the text has come to its end. -/
theorem Delivers.peek_one (h : r.Delivers o) (hpeek : 1 ≤ r.maxPeek)
    (hclean : o.runes = [] → o.fault = none) :
    (r.answer (.peek 1)).1 = .runes (o.runes.take 1) ((o.runes.take 1).length == 1) := by
  rw [answer_peek_one hpeek]
  rcases h.fill 1 with ⟨r', hr', -, -, htake, -⟩ | ⟨f, line, r', -, -, -, -, ho⟩
  · rw [hr']
    dsimp only
    rw [htake]
  · subst ho
    cases hclean rfl

/-- A look for one rune meets a fault that nothing comes before. -/
theorem Delivers.peek_fault {f : Fault} (h : r.Delivers ⟨[], some f⟩) (hpeek : 1 ≤ r.maxPeek) :
    ∃ line, (r.answer (.peek 1)).1 = .error (.undecodable r.charsetName f line) := by
  rw [answer_peek_one hpeek]
  rcases h.fill 1 with ⟨r', -, -, -, -, hclean⟩ | ⟨f', line, r', hr', -, -, -, ho⟩
  · cases hclean Nat.one_pos rfl
  · cases ho
    exact ⟨line, by rw [hr']⟩

/-- All runes before a fault can be consumed, and then the fault is met. -/
theorem Delivers.peek_behind_advance (h : r.Delivers o) (hpeek : 1 ≤ r.maxPeek) {f : Fault}
    (hfault : o.fault = some f) :
    ∃ line, ((r.answer (.advance o.runes.length)).2.answer (.peek 1)).1 =
      .error (.undecodable r.charsetName f line) := by
  rw [answer_advance, if_neg (by omega), Int.toNat_natCast]
  rcases h.fill o.runes.length with ⟨r', hr', hdel, hplace, htake, -⟩ | ⟨f', line, r', -, -, -, hn,
    ho⟩
  · rw [hr', ← hplace.charsetName_eq]
    have hrest := hdel.consume htake
    rw [List.drop_length, hfault] at hrest
    exact hrest.peek_fault (by rw [← hplace.maxPeek_eq] at hpeek; exact hpeek)
  · -- Nothing is asked for where no rune comes before the fault.
    rw [ho] at hn
    cases hn

/-! ### Readers just opened -/

variable {name : Text} {maxPeek : Int}

theorem exists_delivers_plain (octets : Octets) (chunkSize : Int) {k : Codec}
    (hname : Charset.ofName name = .ok (.plain k)) (hpeek : 1 ≤ maxPeek) :
    ∃ r, ofOctets octets name maxPeek chunkSize = .ok r ∧ 1 ≤ r.maxPeek ∧
      (chunkSize ≤ maxChunk → r.Delivers (k.read octets)) := by
  obtain ⟨r, hr, -, hlimit, -, hout, hsettled, -⟩ := outlook_ofOctets octets chunkSize hname hpeek
  exact ⟨r, hr, by omega, fun hchunk => .settled (hsettled hchunk) hout⟩

theorem exists_delivers_utf8Marked (octets : Octets) (chunkSize : Int)
    (hname : Charset.ofName name = .ok .utf8Marked) (hpeek : 1 ≤ maxPeek) :
    ∃ r, ofOctets octets name maxPeek chunkSize = .ok r ∧ 1 ≤ r.maxPeek ∧ r.charsetName = name ∧
      (chunkSize ≤ maxChunk →
        (¬ LosesMark (max chunkSize 1).toNat octets →
          r.Delivers (Charset.utf8Marked.decode octets)) ∧
        (LosesMark (max chunkSize 1).toNat octets →
          r.Delivers (Codec.utf8.read (octets.drop 6)))) := by
  obtain ⟨r, hr, hheld⟩ : ∃ r, ofOctets octets name maxPeek chunkSize = .ok r ∧
      r.decoder.held = [] := by
    unfold ofOctets
    rw [if_neg (by omega), hname]
    exact ⟨_, rfl, rfl⟩
  obtain ⟨hcharset, hlimit, hsize, -⟩ := fields_ofOctets hr
  refine ⟨r, hr, by omega, hcharset, fun hchunk => ?_⟩
  obtain ⟨r', hr', hunopened⟩ := exists_unopened octets hname hpeek hchunk
  obtain rfl : r = r' := Except.ok.inj (hr.symm.trans hr')
  rw [← hsize]
  exact ⟨hunopened.delivers_of_keeps (.inl hheld), hunopened.delivers_of_loses hheld⟩

/-- **A reader of marked UTF-8 is one of UTF-8 behind the mark.** Unless the octets end inside the
mark, or the first chunk begins with two marks and is at fault, all calls are answered alike. A
second mark is delivered as a rune, and a fault is met behind the runes before it. -/
theorem answers_utf8Marked (octets : Octets) (chunkSize : Int) {name' : Text}
    (hname : Charset.ofName name = .ok .utf8Marked)
    (hname' : Charset.ofName name' = .ok (.plain .utf8)) (hpeek : 1 ≤ maxPeek)
    (hcut : octets ≠ [0xEF] ∧ octets ≠ [0xEF, 0xBB])
    (hkeeps : ¬ LosesMark (max chunkSize 1).toNat octets) :
    ∃ r r', ofOctets octets name maxPeek chunkSize = .ok r ∧
      ofOctets (behindUtf8Mark octets) name' maxPeek chunkSize = .ok r' ∧
      (∀ calls, bare (r.answers calls) = bare (r'.answers calls)) ∧
      (chunkSize ≤ maxChunk →
        (utf8Mark ++ utf8Mark <+: octets → (r.answer (.peek 1)).1 = .runes [markRune] true) ∧
        ∀ text f, Codec.utf8.read (behindUtf8Mark octets) = ⟨text, some f⟩ →
          ∃ line, ((r.answer (.advance text.length)).2.answer (.peek 1)).1 =
            .error (.undecodable name f line)) := by
  obtain ⟨r, hr, hlimit, hcharset, hmarked⟩ :=
    exists_delivers_utf8Marked octets chunkSize hname hpeek
  obtain ⟨r', hr', -, hplain⟩ :=
    exists_delivers_plain (behindUtf8Mark octets) chunkSize hname' hpeek
  have hdel (hchunk : chunkSize ≤ maxChunk) :
      r.Delivers (Codec.utf8.read (behindUtf8Mark octets)) := by
    rw [← decode_utf8Marked hcut]
    exact (hmarked hchunk).1 hkeeps
  have halike : Alike r r' :=
    alike_of_ofOctets hr hr' fun hchunk => ⟨_, hdel hchunk, hplain hchunk⟩
  refine ⟨r, r', hr, hr', halike.answers, fun hchunk => ⟨fun hmarks => ?_, fun text f hread => ?_⟩⟩
  · obtain ⟨rest, rfl⟩ := hmarks
    have hrunes := hdel hchunk
    rw [List.append_assoc, behindUtf8Mark_utf8Mark_append, read_utf8Mark_append] at hrunes
    exact hrunes.peek_one hlimit (absurd · (List.cons_ne_nil _ _))
  · have hfault := hdel hchunk
    rw [hread] at hfault
    rw [← hcharset]
    exact hfault.peek_behind_advance hlimit rfl

/-- Two marks, a rune and an octet at fault, taken four octets at a time. -/
theorem answers_utf8Marked_twoMarks :
    Charset.ofName "utf-8-sig".toList = .ok .utf8Marked ∧
      Charset.ofName "utf-8".toList = .ok (.plain .utf8) ∧
      ¬ LosesMark 4 (utf8Mark ++ utf8Mark ++ [0x61, 0xFF]) ∧
      ∃ r, ofOctets (utf8Mark ++ utf8Mark ++ [0x61, 0xFF]) "utf-8-sig".toList 8 4 = .ok r ∧
        bare (r.answers [.peek 2, .advance 5, .peek 1]) =
          [(.runes [markRune, 'a'] true, {}), (.count 2, { column := 2 }),
            (.error (.undecodable [] .startByte 0), { column := 2 })] := by
  have hname : Charset.ofName "utf-8-sig".toList = .ok .utf8Marked := rfl
  have hname' : Charset.ofName "utf-8".toList = .ok (.plain .utf8) := rfl
  have hkeeps : ¬ LosesMark 4 (utf8Mark ++ utf8Mark ++ [0x61, 0xFF]) := by
    rintro ⟨hmarks, -⟩
    exact absurd hmarks.length_le (by decide)
  refine ⟨hname, hname', hkeeps, ?_⟩
  obtain ⟨r, r', hr, hr', halike, -⟩ :=
    answers_utf8Marked (utf8Mark ++ utf8Mark ++ [0x61, 0xFF]) 4 hname hname'
      (show (1 : Int) ≤ 8 by decide) (by decide) hkeeps
  obtain ⟨r₁, hr₁, -, hagrees⟩ := agrees_ofOctets (utf8Mark ++ [0x61, 0xFF]) hname'
    (show (1 : Int) ≤ 8 by decide) (show (4 : Int) ≤ maxChunk by decide)
  obtain rfl : r' = r₁ := Except.ok.inj (hr'.symm.trans hr₁)
  refine ⟨r, hr, (halike _).trans ?_⟩
  have hpass : Codec.utf8.pass true (utf8Mark ++ [0x61, 0xFF]) =
      ⟨[markRune, 'a'], [0xFF], some .startByte⟩ := by
    rw [pass_utf8Mark_append, Codec.pass_of_rune true (c := 'a') (t := [0xFF]) rfl,
      Codec.pass_of_bad true (f := .startByte) rfl]
  rw [← bare_unplaced, hagrees.answers]
  simp only [Whole.ofOctets, hpass]
  rfl

/-- The second of two marks before a fault is lost to a reader of marked UTF-8. -/
theorem peek_lostMark :
    ∃ r r', ofOctets (utf8Mark ++ (utf8Mark ++ [0xFF])) "utf-8-sig".toList 8 4096 = .ok r ∧
      ofOctets (behindUtf8Mark (utf8Mark ++ (utf8Mark ++ [0xFF]))) "utf-8".toList 8 4096 = .ok r' ∧
      (r.answer (.peek 1)).1.bare = .error (.undecodable [] .startByte 0) ∧
      (r'.answer (.peek 1)).1.bare = .runes [markRune] true := by
  obtain ⟨r, hr, hlimit, -, hmarked⟩ :=
    exists_delivers_utf8Marked (utf8Mark ++ (utf8Mark ++ [0xFF])) 4096
      (show Charset.ofName "utf-8-sig".toList = .ok .utf8Marked from rfl)
      (show (1 : Int) ≤ 8 by decide)
  obtain ⟨r', hr', hlimit', hplain⟩ :=
    exists_delivers_plain (behindUtf8Mark (utf8Mark ++ (utf8Mark ++ [0xFF]))) 4096
      (show Charset.ofName "utf-8".toList = .ok (.plain .utf8) from rfl)
      (show (1 : Int) ≤ 8 by decide)
  have hbad (final : Bool) : Codec.utf8.pass final [0xFF] = ⟨[], [0xFF], some .startByte⟩ :=
    Codec.pass_of_bad final rfl
  have hloses : LosesMark (max 4096 1 : Int).toNat (utf8Mark ++ (utf8Mark ++ [0xFF])) := by
    refine ⟨⟨[0xFF], rfl⟩, ?_⟩
    show (Codec.utf8.pass false (utf8Mark ++ (utf8Mark ++ [0xFF]))).fault ≠ none
    rw [pass_utf8Mark_append, pass_utf8Mark_append, hbad]
    exact Option.some_ne_none _
  have hread : Codec.utf8.read ((utf8Mark ++ (utf8Mark ++ [0xFF]) : Octets).drop 6) =
      ⟨[], some .startByte⟩ := by
    show Codec.utf8.read [0xFF] = _
    rw [Codec.read, hbad]
  have hdel := (hmarked (by decide)).2 hloses
  have hdel' := hplain (by decide)
  rw [hread] at hdel
  rw [behindUtf8Mark_utf8Mark_append, read_utf8Mark_append] at hdel'
  obtain ⟨line, hanswer⟩ := hdel.peek_fault hlimit
  refine ⟨r, r', hr, hr', ?_, ?_⟩
  · rw [hanswer]
    rfl
  · rw [hdel'.peek_one hlimit' (absurd · (List.cons_ne_nil _ _))]
    rfl

/-- Half a mark is no fault to a reader of marked UTF-8. -/
theorem peek_halfMark :
    ∃ r r', ofOctets [0xEF, 0xBB] "utf-8-sig".toList 8 4096 = .ok r ∧
      ofOctets (behindUtf8Mark [0xEF, 0xBB]) "utf-8".toList 8 4096 = .ok r' ∧
      (r.answer (.peek 1)).1.bare = .runes [] false ∧
      (r'.answer (.peek 1)).1.bare = .error (.undecodable [] .unexpectedEnd 0) := by
  obtain ⟨r, hr, hlimit, -, hmarked⟩ :=
    exists_delivers_utf8Marked [0xEF, 0xBB] 4096
      (show Charset.ofName "utf-8-sig".toList = .ok .utf8Marked from rfl)
      (show (1 : Int) ≤ 8 by decide)
  obtain ⟨r', hr', hlimit', hplain⟩ :=
    exists_delivers_plain (behindUtf8Mark [0xEF, 0xBB]) 4096
      (show Charset.ofName "utf-8".toList = .ok (.plain .utf8) from rfl)
      (show (1 : Int) ≤ 8 by decide)
  have hkeeps : ¬ LosesMark (max 4096 1 : Int).toNat [0xEF, 0xBB] := by
    rintro ⟨hmarks, -⟩
    exact absurd hmarks.length_le (by decide)
  have hread : Codec.utf8.read (behindUtf8Mark [0xEF, 0xBB]) = ⟨[], some .unexpectedEnd⟩ := by
    rw [Codec.read, show behindUtf8Mark [0xEF, 0xBB] = [0xEF, 0xBB] from rfl,
      Codec.pass_of_short true (f := .unexpectedEnd) rfl]
    rfl
  have hdel := (hmarked (by decide)).1 hkeeps
  have hdel' := hplain (by decide)
  rw [hread] at hdel'
  obtain ⟨line, hanswer'⟩ := hdel'.peek_fault hlimit'
  refine ⟨r, r', hr, hr', ?_, ?_⟩
  · rw [hdel.peek_one hlimit fun _ => rfl]
    rfl
  · rw [hanswer']
    rfl

/-- Readers of marked UTF-8 and of what is behind the mark do not always answer alike: a mark may be
lost, and so may the fault in half a mark. -/
theorem answers_utf8Marked_ne :
    (∃ r r', ofOctets (utf8Mark ++ (utf8Mark ++ [0xFF])) "utf-8-sig".toList 8 4096 = .ok r ∧
      ofOctets (behindUtf8Mark (utf8Mark ++ (utf8Mark ++ [0xFF]))) "utf-8".toList 8 4096 = .ok r' ∧
      bare (r.answers [.peek 1]) ≠ bare (r'.answers [.peek 1])) ∧
    ∃ r r', ofOctets [0xEF, 0xBB] "utf-8-sig".toList 8 4096 = .ok r ∧
      ofOctets (behindUtf8Mark [0xEF, 0xBB]) "utf-8".toList 8 4096 = .ok r' ∧
      bare (r.answers [.peek 1]) ≠ bare (r'.answers [.peek 1]) := by
  have hne {r r' : Reader} (h : (r.answer (.peek 1)).1.bare ≠ (r'.answer (.peek 1)).1.bare) :
      bare (r.answers [.peek 1]) ≠ bare (r'.answers [.peek 1]) := by
    intro heq
    exact h (congrArg Prod.fst (List.cons.inj heq).1)
  constructor
  · obtain ⟨r, r', hr, hr', hanswer, hanswer'⟩ := peek_lostMark
    exact ⟨r, r', hr, hr', hne (by rw [hanswer, hanswer']; exact Answer.noConfusion)⟩
  · obtain ⟨r, r', hr, hr', hanswer, hanswer'⟩ := peek_halfMark
    exact ⟨r, r', hr, hr', hne (by rw [hanswer, hanswer']; exact Answer.noConfusion)⟩

end Reader

end SourceNotes
