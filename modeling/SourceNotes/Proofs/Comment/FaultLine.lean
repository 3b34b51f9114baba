/-
The line that a decoding error names.

A fault is put down when the chunk that it is in is taken, under the line on which the reader stands
at that time, and it is raised when the reader has come to it, which may be lines later. So the line
in the error is the one on which the undecodable octets are only if no newline is consumed in
between.

* **`Reader.TakesFault`** — the call that takes the chunk with the fault; the line is that of the
  text consumed before it (`TakesFault.line_eq`);
* **`Reader.line_of_undecodable`** — the line in every decoding error, of a reader and of a scan,
  and when it is the line of the fault;
* **`Reader.line_of_undecodable_ne`** — a fault on the second line that is reported on the first.
-/
import SourceNotes.Proofs.Comment.Asked

namespace SourceNotes

open Charset

namespace Reader

variable {r : Reader} {o : Outlook} {b : Breakage} {c : Call} {earlier calls : List Call}

/-- The call `c` takes the chunk with the fault, after the calls `earlier`. -/
structure TakesFault (r : Reader) (earlier : List Call) (c : Call) (b : Breakage) : Prop where
  none_before : (r.after earlier).breakage = none
  some_after : ((r.after earlier).answer c).2.breakage = some b

/-- The fault is put down under the line behind what was consumed before. -/
theorem TakesFault.line_eq (h : r.TakesFault earlier c b) :
    b.line = (r.position.after (r.consumed earlier)).line := by
  obtain ⟨r', hfetched, -, hanswer⟩ := exists_fetched_answer (r.after earlier) c
  have hb : r'.breakage = some b := by
    rw [← h.some_after, hanswer]
    rfl
  rw [hfetched.line_eq h.none_before b hb, position_after]

/-- A fault that a reader has met stays with it. -/
theorem breakage_answer (h : r.breakage = some b) (c : Call) :
    (r.answer c).2.breakage = some b := by
  obtain ⟨r', hfetched, -, hanswer⟩ := exists_fetched_answer r c
  have hspent : r.Spent := .inl (by rw [h]; exact Option.some_ne_none b)
  rw [hanswer, hfetched.eq_of_spent hspent]
  exact h

theorem breakage_after (h : r.breakage = some b) (calls : List Call) :
    (r.after calls).breakage = some b := by
  induction calls generalizing r with
  | nil => exact h
  | cons c calls ih => exact ih (breakage_answer h c)

/-- If a fault has been met, one of the calls took the chunk that it is in. -/
theorem exists_takesFault (hnone : r.breakage = none) (h : (r.after calls).breakage = some b) :
    ∃ earlier c later, calls = earlier ++ c :: later ∧ r.TakesFault earlier c b := by
  induction calls generalizing r with
  | nil =>
    have hsome : r.breakage = some b := h
    rw [hnone] at hsome
    cases hsome
  | cons c calls ih =>
    have hafter : ((r.answer c).2.after calls).breakage = some b := h
    cases hc : (r.answer c).2.breakage with
    | none =>
      obtain ⟨earlier, c', later, rfl, htakes⟩ := ih hc hafter
      exact ⟨c :: earlier, c', later, rfl, htakes.none_before, htakes.some_after⟩
    | some b' =>
      -- The first call has taken it, and the fault is the one that is there in the end.
      rw [breakage_after hc] at hafter
      exact ⟨[], c, calls, rfl, hnone, hc.trans hafter⟩

/-- A reader that is stuck has nothing more to deliver. -/
theorem Delivers.eq_of_stuck {f : Fault} {line : Nat} (h : r.Delivers o) (hstuck : r.Stuck f line) :
    o = ⟨[], some f⟩ := by
  obtain ⟨hb, hnil⟩ := hstuck
  cases h with
  | settled hs hout =>
    rw [← hout]
    simp [outlook, undecoded, hb, hnil]
  | spent hstop hout =>
    rw [hout, hb, hnil]
    rfl
  | later hahead hbreakage hended htake hnext =>
    rw [hbreakage] at hb
    cases hb

theorem Raises.stuck {charset : Text} {f : Fault} {line : Nat}
    (h : r.Raises calls (.undecodable charset f line)) :
    (r.after calls).Stuck f line ∧ charset = (r.after calls).charsetName := by
  obtain ⟨earlier, c, rfl, hc⟩ := h
  rw [after_append]
  exact stuck_of_answer hc

theorem charsetName_after (r : Reader) (calls : List Call) :
    (r.after calls).charsetName = r.charsetName := by
  induction calls generalizing r with
  | nil => rfl
  | cons c calls ih =>
    obtain ⟨r', hfetched, -, hanswer⟩ := exists_fetched_answer r c
    show ((r.answer c).2.after calls).charsetName = r.charsetName
    rw [ih, hanswer]
    exact hfetched.place.charsetName_eq

/-- A reader whose chunks are too large stays as it is, whatever is called. -/
theorem Blocked.after (h : r.Blocked) (calls : List Call) : r.after calls = r := by
  have hanswer (c : Call) : (r.answer c).2 = r := by
    cases c with
    | peek n =>
      rw [answer_peek]
      by_cases hneg : n < 0
      · rw [if_pos hneg]
      by_cases hlimit : r.maxPeek < n.toNat
      · rw [if_neg hneg, if_pos hlimit]
      rw [if_neg hneg, if_neg hlimit]
      rcases Nat.eq_zero_or_pos n.toNat with hzero | hpos
      · rw [hzero, fill_zero]
      · rw [h.fill_eq hpos]
    | advance n =>
      rw [answer_advance]
      by_cases hneg : n < 0
      · rw [if_pos hneg]
      rw [if_neg hneg]
      rcases Nat.eq_zero_or_pos n.toNat with hzero | hpos
      · rw [hzero, fill_zero]
        exact consume_zero r
      · rw [h.fill_eq hpos]
  induction calls with
  | nil => rfl
  | cons c calls ih =>
    show (r.answer c).2.after calls = r
    rw [hanswer, ih]

/-- Every decoding error names the line on which the reader stood when it took the chunk with the
fault. All of the text before the fault has been consumed by then or later, and the line is that of
the fault just if what was consumed later holds no newline. An error that ended a scan is such an
error. -/
theorem line_of_undecodable (octets : Octets) {charsetName : Text} {k : Codec} {maxPeek : Int}
    (chunkSize : Int) (hname : Charset.ofName charsetName = .ok (.plain k)) (hpeek : 1 ≤ maxPeek) :
    ∃ r, ofOctets octets charsetName maxPeek chunkSize = .ok r ∧
      (∀ calls charset f line, r.Raises calls (.undecodable charset f line) →
        charset = charsetName ∧ k.read octets = ⟨r.consumed calls, some f⟩ ∧
        ∃ earlier c later rest, calls = earlier ++ c :: later ∧
          r.TakesFault earlier c ⟨f, line⟩ ∧ r.consumed calls = r.consumed earlier ++ rest ∧
          line = 1 + (r.consumed earlier).count '\n' ∧
          (line = 1 + (r.consumed calls).count '\n' ↔ '\n' ∉ rest)) ∧
      ∀ rules n e, ((Scanner.ofReader rules r).after n).error = some e →
        ∃ calls, ((Scanner.ofReader rules r).after n).head.reader = r.after calls ∧
          r.Raises calls e := by
  obtain ⟨r, hr, hcharset, -, hpos, hout, hsettled, hblocked⟩ :=
    outlook_ofOctets octets chunkSize hname hpeek
  have hnone : r.breakage = none := breakage_ofOctets hr
  refine ⟨r, hr, ?_, ?_⟩
  · intro calls charset f line hraises
    obtain ⟨hstuck, hname'⟩ := hraises.stuck
    rw [charsetName_after, hcharset] at hname'
    have hchunk : chunkSize ≤ maxChunk := by
      by_cases hle : chunkSize ≤ maxChunk
      · exact hle
      · -- With chunks too large nothing is ever taken.
        have hbreakage := hstuck.1
        rw [(hblocked (Int.lt_of_not_ge hle)).after, hnone] at hbreakage
        cases hbreakage
    have hdel : r.Delivers (k.read octets) := .settled (hsettled hchunk) hout
    obtain ⟨o, hdel', hruns, hfault⟩ := hdel.after calls
    obtain rfl := hdel'.eq_of_stuck hstuck
    rw [List.append_nil] at hruns
    obtain ⟨earlier, c, later, rfl, htakes⟩ := exists_takesFault hnone hstuck.1
    have hline : line = 1 + (r.consumed earlier).count '\n' := by
      have := htakes.line_eq
      rwa [hpos, Position.line_after] at this
    refine ⟨hname', ?_, earlier, c, later, (r.after earlier).consumed (c :: later), rfl, htakes,
      consumed_append r earlier (c :: later), hline, ?_⟩
    · have hfault : some f = (k.read octets).fault := hfault
      rw [← hruns, hfault]
    · rw [consumed_append, List.count_append, ← List.count_eq_zero]
      omega
  · intro rules n e he
    obtain ⟨calls, hreader, hraises⟩ :=
      Scanner.exists_calls_after (s := Scanner.ofReader rules r) rfl n
    exact ⟨calls, hreader, (hraises e he).2⟩

/-- Without a newline before the fault, every error names the first line. -/
theorem line_of_undecodable_oneLine :
    Charset.ofName "utf-8".toList = .ok (.plain .utf8) ∧ (1 : Int) ≤ 8 ∧
      ∃ r, ofOctets [0x61, 0xFF] "utf-8".toList 8 1 = .ok r ∧
        ∀ calls charset f line, r.Raises calls (.undecodable charset f line) →
          r.consumed calls = ['a'] ∧ line = 1 := by
  refine ⟨rfl, by decide, ?_⟩
  obtain ⟨r, hr, hline, -⟩ := line_of_undecodable [0x61, 0xFF] 1
    (show Charset.ofName "utf-8".toList = .ok (.plain .utf8) from rfl) (show (1 : Int) ≤ 8 by decide)
  have hread : Codec.utf8.read [0x61, 0xFF] = ⟨['a'], some .startByte⟩ := by
    rw [Codec.read, Codec.pass_of_rune true (c := 'a') (t := [0xFF]) rfl,
      Codec.pass_of_bad true (f := .startByte) rfl]
  refine ⟨r, hr, ?_⟩
  intro calls charset f line hraises
  obtain ⟨-, htext, earlier, c, later, rest, -, -, hrest, -, hiff⟩ :=
    hline calls charset f line hraises
  rw [hread] at htext
  have hconsumed : r.consumed calls = ['a'] := (congrArg Outlook.runes htext).symm
  have hmem : '\n' ∉ rest := by
    intro hmem
    have := List.mem_append_right (r.consumed earlier) hmem
    rw [← hrest, hconsumed] at this
    simp at this
  refine ⟨hconsumed, ?_⟩
  have := hiff.2 hmem
  rwa [hconsumed] at this

/-- The fault is behind a newline, but the chunk with it was taken on the first line: the error
names line 1, and the fault is on line 2. -/
theorem line_of_undecodable_ne :
    ∃ r, ofOctets [0x61, 0x0A, 0x62, 0xFF] "utf-8".toList 1024 4096 = .ok r ∧
      Codec.utf8.read [0x61, 0x0A, 0x62, 0xFF] = ⟨['a', '\n', 'b'], some .startByte⟩ ∧
      r.Raises [.advance 3, .peek 1] (.undecodable "utf-8".toList .startByte 1) ∧
      1 ≠ 1 + (['a', '\n', 'b'] : Text).count '\n' := by
  have hpass (final : Bool) : Codec.utf8.pass final [0x61, 0x0A, 0x62, 0xFF] =
      ⟨['a', '\n', 'b'], [0xFF], some .startByte⟩ := by
    rw [Codec.pass_of_rune final (c := 'a') (t := [0x0A, 0x62, 0xFF]) rfl,
      Codec.pass_of_rune final (c := '\n') (t := [0x62, 0xFF]) rfl,
      Codec.pass_of_rune final (c := 'b') (t := [0xFF]) rfl,
      Codec.pass_of_bad final (f := .startByte) rfl]
  let r : Reader :=
    { charsetName := "utf-8".toList, decoder := .ofCharset Charset.utf8
      unread := [0x61, 0x0A, 0x62, 0xFF] }
  let r₁ : Reader :=
    { r with
      unread := [], decoder := { r.decoder with held := [] }
      ahead := ['a', '\n', 'b'], breakage := some ⟨.startByte, 1⟩ }
  have hfed : r.decoder.feed (r.unread.take r.chunkSize) (r.unread.take r.chunkSize).isEmpty =
      .broken ['a', '\n', 'b'] .startByte := by
    show Decoder.feedSettled .utf8 false [0x61, 0x0A, 0x62, 0xFF] = _
    simp only [Decoder.feedSettled, hpass]
  have htake : takeChunk r = .ok () r₁ := takeChunk_of_broken (by decide) hfed
  have hfill : r.fill 3 = .ok () r₁ :=
    (fill_of_takeChunk rfl rfl rfl htake (by decide)).trans (fill_of_holds (.inl (Nat.le_refl 3)))
  have hadvance : (r.answer (.advance 3)).2 = r₁.consume 3 := by
    rw [answer_advance, if_neg (by decide), show (3 : Int).toNat = 3 from rfl, hfill]
  have hstuck : (r₁.consume 3).Stuck .startByte 1 := ⟨rfl, rfl⟩
  refine ⟨r, rfl, ?_, ⟨[.advance 3], .peek 1, rfl, ?_⟩, by decide⟩
  · rw [Codec.read, hpass]
  · show ((r.answer (.advance 3)).2.answer (.peek 1)).1 = _
    rw [hadvance]
    exact (hstuck.answer (.peek 1)).2 ⟨by decide, by decide⟩

end Reader

end SourceNotes
