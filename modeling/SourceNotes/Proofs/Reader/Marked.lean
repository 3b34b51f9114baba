/-
Readers of what was encoded.

A text that was encoded is read as it was, in chunks of any size, also where a mark stands before
it. A mark may arrive in several chunks; until it is complete nothing is decoded, and from then on
the reader is one of the octets behind the mark.

* **`Decoder.feed_of_short`**, **`Decoder.feed_of_mark`** — a decoder before the mark and at the
  end of the mark;
* **`Reader.BeforeMark`** — a reader that has not come by the mark; it fills like one that has
  (`BeforeMark.fill`);
* **`Reader.Follows`** — a reader is in step with that of a text without a fault, kept by every
  call (`Follows.answer`);
* **`Reader.answers_of_encode`** — a reader of an encoded text answers as the text says, and no
  error comes from the octets.
-/
import SourceNotes.Proofs.Charset.Encoding
import SourceNotes.Proofs.Reader.Whole

namespace SourceNotes

open Charset

/-! ### Decoders before a mark -/

namespace Charset

/-- In this phase a decoder waits for the octets of a mark, and goes on with the codec. -/
inductive Phase.Awaits : Phase → Octets → Codec → Prop
  | utf8 : Awaits .beforeUtf8Mark utf8Mark .utf8
  | wide (w : Wide) (order : ByteOrder) :
    Awaits (.beforeOrderMark w) (w.mark order) (w.codec order)

theorem Wide.length_mark (w : Wide) (order : ByteOrder) : (w.mark order).length = w.size := by
  cases w <;> cases order <;> rfl

theorem Wide.orderOf_mark (w : Wide) (order : ByteOrder) (s : Octets) :
    w.orderOf (w.mark order ++ s) = some order := by
  cases w <;> cases order <;> rfl

theorem Wide.orderOf_of_short (w : Wide) {s : Octets} (h : s.length < w.size) :
    w.orderOf s = none := by
  have hno (order : ByteOrder) : ¬ (w.mark order).isPrefixOf s = true := fun hfront => by
    have := (List.isPrefixOf_iff_prefix.1 hfront).length_le
    rw [w.length_mark] at this
    omega
  rw [orderOf, if_neg (hno .little), if_neg (hno .big)]

theorem Wide.pass_of_short (w : Wide) (order : ByteOrder) {s : Octets} (h : s.length < w.size) :
    (w.codec order).pass false s = ⟨[], s, none⟩ := by
  cases w with
  | utf16 =>
    rcases s with _ | ⟨a, _ | ⟨b, s⟩⟩
    · rw [Codec.pass]
    · exact Codec.pass_of_short false rfl
    · have hlong : s.length + 1 + 1 < 2 := h
      omega
  | utf32 =>
    rcases s with _ | ⟨a, _ | ⟨b, _ | ⟨c, _ | ⟨d, s⟩⟩⟩⟩
    · rw [Codec.pass]
    · exact Codec.pass_of_short false rfl
    · exact Codec.pass_of_short false rfl
    · exact Codec.pass_of_short false rfl
    · have hlong : s.length + 1 + 1 + 1 + 1 < 4 := h
      omega

namespace Decoder

variable {phase : Phase} {mark held chunk content : Octets} {k : Codec}

theorem feed_of_short (h : phase.Awaits mark k) (hfront : held ++ chunk <+: mark)
    (hshort : (held ++ chunk).length < mark.length) :
    feed ⟨phase, held⟩ chunk false = .decoded [] ⟨phase, held ++ chunk⟩ := by
  cases h with
  | utf8 =>
    have hwaits : (decide ((held ++ chunk).length < 3) && (held ++ chunk).isPrefixOf utf8Mark) =
        true :=
      Bool.and_eq_true_iff.2 ⟨decide_eq_true hshort, List.isPrefixOf_iff_prefix.2 hfront⟩
    exact if_pos hwaits
  | wide w order =>
    rw [w.length_mark] at hshort
    simp only [feed, feedOrderMark, w.orderOf_of_short hshort, w.pass_of_short .little hshort]

theorem feed_of_mark (h : phase.Awaits mark k) (hoctets : held ++ chunk = mark ++ content)
    (final : Bool) (hfault : (k.pass final content).fault = none) :
    feed ⟨phase, held⟩ chunk final =
      .decoded (k.pass final content).runes ⟨.settled k, (k.pass final content).rest⟩ := by
  have hsettled : feedSettled k final content =
      .decoded (k.pass final content).runes ⟨.settled k, (k.pass final content).rest⟩ := by
    simp only [feedSettled, hfault]
  cases h with
  | utf8 =>
    have hlong : ¬ (utf8Mark ++ content).length < 3 := by
      rw [List.length_append]
      exact Nat.not_lt.2 (Nat.le_add_right ..)
    have hmark : utf8Mark.isPrefixOf (utf8Mark ++ content) = true :=
      List.isPrefixOf_iff_prefix.2 (List.prefix_append ..)
    have hdrop : (utf8Mark ++ content).drop 3 = content := rfl
    simp only [feed, feedUtf8Mark, hoctets, hlong, hmark, hdrop, hsettled, decide_false,
      Bool.false_and, Bool.false_eq_true, if_false, if_true]
  | wide w order =>
    have hdrop : (w.mark order ++ content).drop w.size = content := by
      rw [← w.length_mark order, List.drop_left]
    simp only [feed, feedOrderMark, hoctets, w.orderOf_mark, hdrop, hsettled]

end Decoder

end Charset

/-! ### The reader of a text -/

namespace Whole

/-- The reader at the start of a text that nothing is behind. -/
def ofText (x charsetName : Text) (maxPeek : Int) : Whole :=
  { charsetName, maxPeek := maxPeek.toNat, text := x, fault := none }

variable {w : Whole}

theorem error?_of_fault_none (h : w.fault = none) (n : Nat) : w.error? n = none :=
  error?_of_ne fun _ _ => h

@[simp] theorem fault_answer (w : Whole) (c : Call) : (w.answer c).2.fault = w.fault := by
  cases c with
  | peek n =>
    rw [answer]
    repeat' split
    all_goals rfl
  | advance n =>
    rw [answer]
    repeat' split
    all_goals rfl

theorem move_zero (w : Whole) : w.move 0 = w := by
  simp [move]

/-- Without a fault a call that is not refused has an answer. -/
theorem answer_ne_error (h : w.fault = none) {c : Call} (hc : ¬ c.Refused w.maxPeek)
    (e : ReadError) : (w.answer c).1 ≠ .error e := by
  cases c with
  | peek n =>
    rw [Call.Refused, not_or] at hc
    rw [answer, if_neg hc.1, if_neg (by omega), error?_of_fault_none h]
    intro he
    cases he
  | advance n =>
    rw [Call.Refused] at hc
    rw [answer, if_neg hc, error?_of_fault_none h]
    intro he
    cases he

theorem answer_ne_undecodable (h : w.fault = none) (c : Call) (charset : Text) (f : Fault)
    (line : Nat) : (w.answer c).1 ≠ .error (.undecodable charset f line) := by
  intro hc
  cases c with
  | peek n =>
    rw [answer, error?_of_fault_none h] at hc
    by_cases hneg : n < 0
    · simp [hneg] at hc
    by_cases hlimit : w.maxPeek < n.toNat
    · simp [hneg, hlimit] at hc
    · simp [hneg, hlimit] at hc
  | advance n =>
    rw [answer, error?_of_fault_none h] at hc
    by_cases hneg : n < 0
    · simp [hneg] at hc
    · simp [hneg] at hc

theorem answers_ne_error (h : w.fault = none) {calls : List Call}
    (hcalls : ∀ c ∈ calls, ¬ c.Refused w.maxPeek) :
    ∀ a ∈ w.answers calls, ∀ e, a.1 ≠ .error e := by
  induction calls generalizing w with
  | nil => exact nofun
  | cons c calls ih =>
    obtain ⟨hc, hcalls⟩ := List.forall_mem_cons.1 hcalls
    refine List.forall_mem_cons.2 ⟨answer_ne_error h hc, ih ((w.fault_answer c).trans h) ?_⟩
    rwa [w.maxPeek_answer]

end Whole

/-- An answer that is no decoding error names no line to leave out. -/
theorem Answer.eq_of_unplaced {a b : Answer} (h : a.unplaced = b.unplaced)
    (hb : ∀ charset f line, b ≠ .error (.undecodable charset f line)) : a = b := by
  have hunplaced : b.unplaced = b := by
    unfold unplaced
    split
    · exact absurd rfl (hb _ _ _)
    · rfl
  rw [hunplaced] at h
  unfold unplaced at h
  split at h
  · exact absurd h.symm (hb _ _ _)
  · exact h

namespace Reader

/-! ### Readers before a mark -/

/-- The reader `r` has yet to come by the mark in front of the text that is left to `w`. -/
structure BeforeMark (k : Codec) (r : Reader) (w : Whole) : Prop where
  awaits : ∃ mark content, r.decoder.phase.Awaits mark k ∧
    r.decoder.held ++ r.unread = mark ++ content ∧ r.decoder.held.length < mark.length ∧
    k.Decodes content w.rest
  ahead_eq : r.ahead = []
  breakage_eq : r.breakage = none
  ended_eq : r.ended = false
  chunkSize_le : r.chunkSize ≤ maxChunk
  fault_eq : w.fault = none
  charsetName_eq : r.charsetName = w.charsetName
  maxPeek_eq : r.maxPeek = w.maxPeek
  position_eq : r.position = w.position

variable {k : Codec} {r : Reader} {w : Whole}

/-- A chunk adds to the mark, or completes it and begins with the content. -/
theorem BeforeMark.takeChunk (h : BeforeMark k r w) :
    ∃ r', takeChunk r = .ok () r' ∧ (BeforeMark k r' w ∨ Agrees k r' w) := by
  obtain ⟨mark, content, hawaits, hoctets, hheld, hruns, hfault⟩ := h.awaits
  have hunread : r.unread.take r.chunkSize ++ r.unread.drop r.chunkSize = r.unread :=
    List.take_append_drop ..
  have hsplit : r.decoder.held ++ r.unread.take r.chunkSize ++ r.unread.drop r.chunkSize =
      mark ++ content := by
    rw [List.append_assoc, hunread, hoctets]
  have hfinal : (r.unread.take r.chunkSize).isEmpty = false := by
    -- The rest of the mark is still to come.
    have hpos := r.chunkSize_pos
    have hlen := congrArg List.length hoctets
    rw [List.length_append, List.length_append] at hlen
    rw [List.isEmpty_eq_false_iff, ne_eq, List.take_eq_nil_iff, not_or]
    refine ⟨by omega, fun hnil => ?_⟩
    rw [hnil, List.length_nil] at hlen
    omega
  unfold Reader.takeChunk
  rw [if_neg (Nat.not_lt.2 h.chunkSize_le), hfinal]
  by_cases hshort : (r.decoder.held ++ r.unread.take r.chunkSize).length < mark.length
  · have hfront : r.decoder.held ++ r.unread.take r.chunkSize <+: mark :=
      List.prefix_of_prefix_length_le (hsplit ▸ List.prefix_append ..) (List.prefix_append ..)
        (Nat.le_of_lt hshort)
    rw [Decoder.feed_of_short hawaits hfront hshort]
    refine ⟨_, rfl, .inl ⟨⟨mark, content, hawaits, hsplit, hshort, hruns, hfault⟩, ?_,
      h.breakage_eq, rfl, h.chunkSize_le, h.fault_eq, h.charsetName_eq, h.maxPeek_eq,
      h.position_eq⟩⟩
    rw [h.ahead_eq, List.append_nil]
  · obtain ⟨first, hfirst⟩ : mark <+: r.decoder.held ++ r.unread.take r.chunkSize :=
      List.prefix_of_prefix_length_le (List.prefix_append ..) (hsplit ▸ List.prefix_append ..)
        (Nat.not_lt.1 hshort)
    have hcontent : content = first ++ r.unread.drop r.chunkSize := by
      rw [← hfirst, List.append_assoc] at hsplit
      exact (List.append_cancel_left hsplit).symm
    rcases hp : k.pass false first with ⟨runes, rest, fault⟩
    cases fault with
    | some f =>
      -- A fault would be one of the whole content.
      rw [hcontent, Codec.pass_append_of_fault k true hp] at hfault
      cases hfault
    | none =>
      rw [hcontent, Codec.pass_append k true hp] at hruns hfault
      rw [Decoder.feed_of_mark hawaits hfirst.symm false (by rw [hp]), hp]
      refine ⟨_, rfl, .inr ⟨⟨rfl, h.chunkSize_le⟩, ?_, h.charsetName_eq, h.maxPeek_eq,
        h.position_eq⟩⟩
      rw [h.fault_eq, ← hruns, ← hfault, h.ahead_eq]
      simp [outlook, undecoded, h.breakage_eq]

/-- Looking for runes goes on until the mark is complete. -/
theorem BeforeMark.fill (h : BeforeMark k r w) {n : Nat} (hn : 0 < n) :
    ∃ r', Agrees k r' w ∧ r.fill n = r'.fill n := by
  -- By the chunks to be taken: each adds to the mark, and one completes it.
  fun_induction Reader.fill n r with
  | case1 r hmore =>
    rw [hasAtLeast_iff, h.ahead_eq, List.length_nil] at hmore
    omega
  | case2 r hmore b hb hempty => rw [h.breakage_eq] at hb; cases hb
  | case3 r hmore b hb hempty => rw [h.breakage_eq] at hb; cases hb
  | case4 r hmore hb he => rw [h.ended_eq] at he; cases he
  | case5 r hmore hb he r₁ hr₁ hlt ih =>
    obtain ⟨r', hr', hnext⟩ := h.takeChunk
    obtain rfl : r₁ = r' := by rw [hr₁] at hr'; cases hr'; rfl
    rcases hnext with hbefore | hagrees
    · exact ih hbefore
    · exact ⟨r₁, hagrees, rfl⟩
  | case6 r hmore hb he e r₁ hr₁ =>
    obtain ⟨r', hr', -⟩ := h.takeChunk
    rw [hr₁] at hr'
    cases hr'

theorem fill_zero (r : Reader) : r.fill 0 = .ok () r := by
  rw [fill, if_pos (hasAtLeast_iff.2 (Nat.zero_le _))]

theorem consume_zero (r : Reader) : r.consume 0 = r := rfl

/-- A reader before the mark answers a call for runes like one behind it, and no other call moves
it. -/
theorem BeforeMark.answer (h : BeforeMark k r w) (c : Call) :
    (∃ r', Agrees k r' w ∧ r.answer c = r'.answer c) ∨
      r.answer c = ((w.answer c).1, r) ∧ (w.answer c).2 = w := by
  by_cases hasks : c.AsksRunes w.maxPeek
  · left
    cases c with
    | peek n =>
      obtain ⟨hpos, hlimit⟩ := hasks
      obtain ⟨r', hr', hfill⟩ := h.fill (n := n.toNat) (by omega)
      refine ⟨r', hr', ?_⟩
      rw [answer_peek, answer_peek, hfill, h.maxPeek_eq, hr'.maxPeek_eq, if_neg (by omega),
        if_neg (by omega), if_neg (by omega), if_neg (by omega)]
    | advance n =>
      have hpos : 1 ≤ n := hasks
      obtain ⟨r', hr', hfill⟩ := h.fill (n := n.toNat) (by omega)
      refine ⟨r', hr', ?_⟩
      rw [answer_advance, answer_advance, hfill, if_neg (by omega), if_neg (by omega)]
  · right
    cases c with
    | peek n =>
      rw [answer_peek, Whole.answer, h.maxPeek_eq, Whole.error?_of_fault_none h.fault_eq]
      by_cases hneg : n < 0
      · rw [if_pos hneg, if_pos hneg]
        exact ⟨rfl, rfl⟩
      by_cases hlimit : w.maxPeek < n.toNat
      · rw [if_neg hneg, if_neg hneg, if_pos hlimit, if_pos hlimit]
        exact ⟨rfl, rfl⟩
      · have hzero : n.toNat = 0 := by
          rw [Call.AsksRunes] at hasks
          omega
        rw [if_neg hneg, if_neg hneg, if_neg hlimit, if_neg hlimit, hzero, fill_zero]
        simp
    | advance n =>
      rw [answer_advance, Whole.answer, Whole.error?_of_fault_none h.fault_eq]
      by_cases hneg : n < 0
      · rw [if_pos hneg, if_pos hneg]
        exact ⟨rfl, rfl⟩
      · have hzero : n.toNat = 0 := by
          rw [Call.AsksRunes] at hasks
          omega
        rw [if_neg hneg, if_neg hneg, hzero, fill_zero]
        simp [consume_zero, Whole.move_zero]

/-! ### Readers in step -/

/-- The reader `r` has before it what is left to `w`, which has no fault behind it. -/
structure Follows (k : Codec) (r : Reader) (w : Whole) : Prop where
  fault_eq : w.fault = none
  place : Agrees k r w ∨ BeforeMark k r w

theorem Follows.position_eq (h : Follows k r w) : r.position = w.position := by
  rcases h.place with hagrees | hbefore
  · exact hagrees.position_eq
  · exact hbefore.position_eq

theorem Follows.answer (h : Follows k r w) (c : Call) :
    (r.answer c).1 = (w.answer c).1 ∧ Follows k (r.answer c).2 (w.answer c).2 := by
  have hfault := (w.fault_answer c).trans h.fault_eq
  have hagree {r : Reader} (hagrees : Agrees k r w) :
      (r.answer c).1 = (w.answer c).1 ∧ Follows k (r.answer c).2 (w.answer c).2 := by
    obtain ⟨hanswer, hafter⟩ := hagrees.answer c
    exact ⟨Answer.eq_of_unplaced hanswer (Whole.answer_ne_undecodable h.fault_eq c),
      hfault, .inl hafter⟩
  rcases h.place with hagrees | hbefore
  · exact hagree hagrees
  · rcases hbefore.answer c with ⟨r', hr', heq⟩ | ⟨heq, hw⟩
    · rw [heq]
      exact hagree hr'
    · rw [heq, hw]
      exact ⟨rfl, h.fault_eq, .inr hbefore⟩

theorem Follows.answers (h : Follows k r w) (calls : List Call) :
    r.answers calls = w.answers calls := by
  induction calls generalizing r w with
  | nil => rfl
  | cons c calls ih =>
    obtain ⟨hanswer, hafter⟩ := h.answer c
    rw [Reader.answers, Whole.answers, hanswer, hafter.position_eq, ih hafter]

/-- A reader just opened on an encoded text is in step with the text. -/
theorem follows_ofOctets {charset : Charset} {order : ByteOrder} {x : Text} {octets : Octets}
    (hencode : charset.encode order x = some octets) {charsetName : Text} {maxPeek chunkSize : Int}
    (hname : Charset.ofName charsetName = .ok charset) (hpeek : 1 ≤ maxPeek)
    (hchunk : chunkSize ≤ maxChunk) :
    ∃ k r, ofOctets octets charsetName maxPeek chunkSize = .ok r ∧
      Follows k r (.ofText x charsetName maxPeek) := by
  have hmarked {k : Codec} {mark content : Octets} (hcontent : k.encode x = some content)
      (hawaits : (Decoder.ofCharset charset).phase.Awaits mark k)
      (hheld : (Decoder.ofCharset charset).held = []) (hmark : mark ≠ []) :
      ∃ k r, ofOctets (mark ++ content) charsetName maxPeek chunkSize = .ok r ∧
        Follows k r (.ofText x charsetName maxPeek) := by
    unfold ofOctets
    rw [if_neg (by omega), hname]
    refine ⟨k, _, rfl, rfl, .inr ⟨⟨mark, content, hawaits, ?_, ?_, Codec.decodes_encode hcontent⟩,
      rfl, rfl, rfl, ?_, rfl, rfl, rfl, rfl⟩⟩
    · rw [hheld, List.nil_append]
    · rw [hheld]
      exact List.length_pos_iff.2 hmark
    · have hone : (1 : Int) ≤ maxChunk := by decide
      show (max chunkSize 1).toNat ≤ maxChunk
      omega
  cases charset with
  | plain k =>
    obtain ⟨r, hr, -, hagrees⟩ := agrees_ofOctets octets hname hpeek hchunk
    obtain ⟨hruns, hfault⟩ := Codec.decodes_encode hencode
    have hwhole : Whole.ofOctets k octets charsetName maxPeek = .ofText x charsetName maxPeek := by
      simp only [Whole.ofOctets, Whole.ofText, hruns, hfault]
    exact ⟨k, r, hr, rfl, .inl (hwhole ▸ hagrees)⟩
  | utf8Marked =>
    obtain ⟨content, hcontent, rfl⟩ := Option.map_eq_some_iff.1 hencode
    exact hmarked hcontent .utf8 rfl (by decide)
  | wideMarked w =>
    obtain ⟨content, hcontent, rfl⟩ := Option.map_eq_some_iff.1 hencode
    refine hmarked hcontent (.wide w order) rfl fun hnil => ?_
    have hlen := w.length_mark order
    rw [hnil] at hlen
    cases w <;> cases hlen

/-- A reader of a text in any encoding answers every sequence of calls as the text says, whatever
chunks it takes. No call is answered with an error, unless it is refused. In Unicode there is an
encoding of every text. -/
theorem answers_of_encode (charset : Charset) (order : ByteOrder) (x : Text) {charsetName : Text}
    {maxPeek chunkSize : Int} (hname : Charset.ofName charsetName = .ok charset)
    (hpeek : 1 ≤ maxPeek) (hchunk : chunkSize ≤ maxChunk) :
    (charset.Unicode → ∃ octets, charset.encode order x = some octets) ∧
      ∀ octets, charset.encode order x = some octets →
        ∃ r, ofOctets octets charsetName maxPeek chunkSize = .ok r ∧
          (∀ calls, r.answers calls = (Whole.ofText x charsetName maxPeek).answers calls) ∧
          ∀ calls, (∀ c ∈ calls, ¬ c.Refused maxPeek.toNat) →
            ∀ a ∈ r.answers calls, ∀ e, a.1 ≠ .error e := by
  refine ⟨fun h => exists_encode h order x, fun octets hencode => ?_⟩
  obtain ⟨k, r, hr, hfollows⟩ := follows_ofOctets hencode hname hpeek hchunk
  refine ⟨r, hr, hfollows.answers, fun calls hcalls => ?_⟩
  rw [hfollows.answers]
  exact Whole.answers_ne_error rfl hcalls

/-- A mark and two surrogates, taken one octet at a time. -/
theorem answers_of_encode_surrogates :
    Charset.ofName "utf-16".toList = .ok (.wideMarked .utf16) ∧ (1 : Int) ≤ 8 ∧
      (1 : Int) ≤ maxChunk ∧
      (Charset.wideMarked .utf16).encode .big ['😀'] =
        some [0xFE, 0xFF, 0xD8, 0x3D, 0xDE, 0x00] ∧
      ∃ r, ofOctets [0xFE, 0xFF, 0xD8, 0x3D, 0xDE, 0x00] "utf-16".toList 8 1 = .ok r ∧
        r.answers [.peek 2, .advance 1, .peek 1] =
          [(.runes ['😀'] false, {}), (.count 1, { column := 1 }),
            (.runes [] false, { column := 1 })] := by
  have hencode : (Charset.wideMarked .utf16).encode .big ['😀'] =
      some [0xFE, 0xFF, 0xD8, 0x3D, 0xDE, 0x00] := by decide
  have hname : Charset.ofName "utf-16".toList = .ok (.wideMarked .utf16) := rfl
  obtain ⟨r, hr, hanswers, -⟩ :=
    (answers_of_encode (.wideMarked .utf16) .big ['😀'] hname (show (1 : Int) ≤ 8 by decide)
      (show (1 : Int) ≤ maxChunk by decide)).2 _ hencode
  exact ⟨hname, by decide, by decide, hencode, r, hr, (hanswers _).trans rfl⟩

/-- A chunk size that cannot be addressed makes the first call for a rune fail, a limit of no rune
keeps a reader from being opened, and some calls are refused. -/
theorem answers_of_encode_limits :
    (Charset.wideMarked .utf16).encode .little ['a'] = some [0xFF, 0xFE, 0x61, 0x00] ∧
      (∃ r, ofOctets [0xFF, 0xFE, 0x61, 0x00] "utf-16".toList 8 9223372036854775808 = .ok r ∧
        r.answers [.peek 1] ≠ (Whole.ofText ['a'] "utf-16".toList 8).answers [.peek 1]) ∧
      ofOctets [0xFF, 0xFE, 0x61, 0x00] "utf-16".toList 0 4096 = .error (.maxPeek 0) ∧
      ∃ r, ofOctets [0xFF, 0xFE, 0x61, 0x00] "utf-16".toList 8 4096 = .ok r ∧
        r.answers [.peek 9, .advance (-1)] =
          [(.error (.peekLimit 9 8), {}), (.error (.negativeAdvance (-1)), {})] := by
  let r : Reader :=
    { charsetName := "utf-16".toList, maxPeek := 8, chunkSize := 9223372036854775808
      decoder := .ofCharset (.wideMarked .utf16), unread := [0xFF, 0xFE, 0x61, 0x00] }
  have hblocked : r.Blocked := ⟨rfl, rfl, rfl, by decide⟩
  have hanswer : r.answer (.peek 1) = (.error (.chunkTooLarge 9223372036854775808), r) :=
    hblocked.answer (c := .peek 1) ⟨by decide, by decide⟩
  have hreader : r.answers [.peek 1] = [(.error (.chunkTooLarge 9223372036854775808), {})] := by
    rw [answers, hanswer]
    rfl
  have hwhole : (Whole.ofText ['a'] "utf-16".toList 8).answers [.peek 1] =
      [(.runes ['a'] true, {})] := rfl
  refine ⟨by decide, ⟨r, rfl, ?_⟩, rfl, _, rfl, rfl⟩
  rw [hreader, hwhole]
  decide

end Reader

end SourceNotes
