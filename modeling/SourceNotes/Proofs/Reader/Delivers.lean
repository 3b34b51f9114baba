/-
What a reader delivers, whatever it decodes with.

An outlook is a promise about the calls to come: so many runes, and then the end of
the text or a fault. `Reader.Delivers` says that a reader keeps it. A reader that is
settled on a codec keeps what it has before it, one that takes no more chunks has all
of it ahead, and one that still waits for a mark keeps what the reader behind the
next chunk does.

* **`Reader.Delivers.fill`** — filling finds as many of the promised runes as are
  asked for, or the fault if none comes before it, and the promise stands;
* **`Reader.Delivers.consume`** — consuming takes runes off the promise.
-/
import SourceNotes.Proofs.Reader.Outlook

namespace SourceNotes

namespace Reader

/-- The reader `r'` stands where `r` does, and has the same name and limits. -/
structure SamePlace (r r' : Reader) : Prop where
  charsetName_eq : r'.charsetName = r.charsetName
  maxPeek_eq : r'.maxPeek = r.maxPeek
  chunkSize_eq : r'.chunkSize = r.chunkSize
  position_eq : r'.position = r.position

variable {r r' r'' : Reader}

theorem SamePlace.refl (r : Reader) : SamePlace r r := ⟨rfl, rfl, rfl, rfl⟩

theorem SamePlace.trans (h : SamePlace r r') (h' : SamePlace r' r'') : SamePlace r r'' :=
  ⟨h'.charsetName_eq.trans h.charsetName_eq, h'.maxPeek_eq.trans h.maxPeek_eq,
    h'.chunkSize_eq.trans h.chunkSize_eq, h'.position_eq.trans h.position_eq⟩

theorem Refilled.samePlace {k : Charset.Codec} (h : Refilled k r r') : SamePlace r r' :=
  ⟨h.charsetName_eq, h.maxPeek_eq, h.chunkSize_eq, h.position_eq⟩

theorem samePlace_takeChunk (h : takeChunk r = .ok () r') : SamePlace r r' := by
  unfold takeChunk at h
  dsimp only at h
  split at h
  · cases h
  · split at h <;> cases h <;> exact ⟨rfl, rfl, rfl, rfl⟩

/-- A reader just opened stands at the start and has the limits that it was given. -/
theorem fields_ofOctets {octets : Octets} {charsetName : Text} {maxPeek chunkSize : Int}
    (h : ofOctets octets charsetName maxPeek chunkSize = .ok r) :
    r.charsetName = charsetName ∧ r.maxPeek = maxPeek.toNat ∧
      r.chunkSize = (max chunkSize 1).toNat ∧ r.position = {} := by
  unfold ofOctets at h
  split at h
  · cases h
  · split at h <;> cases h
    exact ⟨rfl, rfl, rfl, rfl⟩

/-- A reader is opened with a limit of lookahead of at least one rune. -/
theorem one_le_of_ofOctets {octets : Octets} {charsetName : Text} {maxPeek chunkSize : Int}
    (h : ofOctets octets charsetName maxPeek chunkSize = .ok r) : 1 ≤ maxPeek := by
  unfold ofOctets at h
  by_cases hlow : maxPeek < 1
  · rw [if_pos hlow] at h
    cases h
  · omega

/-- A reader just opened has met no fault. -/
theorem breakage_ofOctets {octets : Octets} {charsetName : Text} {maxPeek chunkSize : Int}
    (h : ofOctets octets charsetName maxPeek chunkSize = .ok r) : r.breakage = none := by
  unfold ofOctets at h
  split at h
  · cases h
  · split at h <;> cases h
    rfl

/-- A reader just opened can take nothing if its chunks are too large. -/
theorem blocked_of_ofOctets {octets : Octets} {charsetName : Text} {maxPeek chunkSize : Int}
    (h : ofOctets octets charsetName maxPeek chunkSize = .ok r) (hchunk : maxChunk < chunkSize) :
    r.Blocked := by
  unfold ofOctets at h
  split at h
  · cases h
  · split at h <;> cases h
    refine ⟨rfl, rfl, rfl, ?_⟩
    show maxChunk < (max chunkSize 1).toNat
    omega

/-- The reader has `o` to deliver. -/
inductive Delivers (o : Outlook) : Reader → Prop
  | settled {k : Charset.Codec} {r : Reader} (hs : r.Settled k) (hout : r.outlook k = o) :
    Delivers o r
  /-- No chunk is taken any more. -/
  | spent {r : Reader} (hstop : r.breakage ≠ none ∨ r.ended = true)
      (hout : o = ⟨r.ahead, r.breakage.map Breakage.fault⟩) : Delivers o r
  /-- The next chunk leads to a reader that has it to deliver. -/
  | later {r r' : Reader} (hahead : r.ahead = []) (hbreakage : r.breakage = none)
      (hended : r.ended = false) (htake : takeChunk r = .ok () r') (hnext : Delivers o r') :
    Delivers o r

variable {o : Outlook}

/-- A reader that takes no more chunks fills up with what is ahead. -/
theorem fill_of_spent (hstop : r.breakage ≠ none ∨ r.ended = true) (n : Nat) :
    r.fill n = .ok () r ∧ (0 < n → r.ahead = [] → r.breakage = none) ∨
      ∃ b, r.fill n = .error (.undecodable r.charsetName b.fault b.line) r ∧
        r.breakage = some b ∧ r.ahead = [] ∧ 0 < n := by
  by_cases hmore : hasAtLeast n r.ahead = true
  · left
    refine ⟨by rw [fill, if_pos hmore], ?_⟩
    intro hn hnil
    have hlen := hasAtLeast_iff.1 hmore
    rw [hnil, List.length_nil] at hlen
    omega
  · have hn : 0 < n := by
      rcases n with _ | n
      · simp [hasAtLeast] at hmore
      · omega
    rw [fill, if_neg hmore]
    cases hb : r.breakage with
    | none =>
      have hended : r.ended = true := by simpa [hb] using hstop
      left
      refine ⟨?_, fun _ _ => rfl⟩
      dsimp only
      split
      · rfl
      · next he => rw [hended] at he; cases he
    | some b =>
      by_cases hnil : r.ahead = []
      · exact .inr ⟨b, by simp [hnil], rfl, hnil, hn⟩
      · exact .inl ⟨by simp [hnil], fun _ h => absurd h hnil⟩

/-- Filling goes on behind the next chunk where nothing is ahead. -/
theorem fill_of_takeChunk (hahead : r.ahead = []) (hbreakage : r.breakage = none)
    (hended : r.ended = false) (htake : takeChunk r = .ok () r') {n : Nat} (hn : 0 < n) :
    r.fill n = r'.fill n := by
  have hmore : ¬ hasAtLeast n r.ahead = true := by
    rw [hasAtLeast_iff, hahead, List.length_nil]
    omega
  rw [fill, if_neg hmore]
  split
  · next b hb => rw [hbreakage] at hb; cases hb
  · split
    · next he => rw [hended] at he; cases he
    · split <;> rename_i heq <;> rw [htake] at heq <;> cases heq
      rfl

/-- Filling up to `n` runes finds the first `n` of those to come, or meets the fault that nothing
comes before. -/
theorem Delivers.fill (h : Delivers o r) (n : Nat) :
    (∃ r', r.fill n = .ok () r' ∧ Delivers o r' ∧ SamePlace r r' ∧
      r'.ahead.take n = o.runes.take n ∧ (0 < n → o.runes = [] → o.fault = none)) ∨
    ∃ f line r', r.fill n = .error (.undecodable r.charsetName f line) r' ∧ Delivers o r' ∧
      SamePlace r r' ∧ 0 < n ∧ o = ⟨[], some f⟩ := by
  induction h with
  | @settled k r hs hout =>
    subst hout
    rcases fill_spec hs n with ⟨r', hr', hre, hrest⟩ | ⟨b, r', hr', hre, -, -, hrest⟩
    · exact .inl ⟨r', hr', .settled (hre.settled hs) hre.outlook_eq, hre.samePlace, hrest⟩
    · exact .inr ⟨b.fault, b.line, r', hr', .settled (hre.settled hs) hre.outlook_eq,
        hre.samePlace, hrest⟩
  | @spent r hstop hout =>
    subst hout
    rcases fill_of_spent hstop n with ⟨hr, hnone⟩ | ⟨b, hr, hb, hnil, hn⟩
    · refine .inl ⟨r, hr, .spent hstop rfl, .refl r, rfl, ?_⟩
      intro hn hnil
      rw [hnone hn hnil]
      rfl
    · refine .inr ⟨b.fault, b.line, r, hr, .spent hstop rfl, .refl r, hn, ?_⟩
      rw [hb, hnil]
      rfl
  | @later r r' hahead hbreakage hended htake hnext ih =>
    have hplace := samePlace_takeChunk htake
    by_cases hn : 0 < n
    · rw [fill_of_takeChunk hahead hbreakage hended htake hn, ← hplace.charsetName_eq]
      rcases ih with ⟨r₁, hr₁, hdel, hsame, hrest⟩ | ⟨f, line, r₁, hr₁, hdel, hsame, hrest⟩
      · exact .inl ⟨r₁, hr₁, hdel, hplace.trans hsame, hrest⟩
      · exact .inr ⟨f, line, r₁, hr₁, hdel, hplace.trans hsame, hrest⟩
    · -- No rune is asked for, and the reader stays as it is.
      obtain rfl : n = 0 := by omega
      refine .inl ⟨r, ?_, .later hahead hbreakage hended htake hnext, .refl r, rfl, ?_⟩
      · rw [Reader.fill, if_pos (hasAtLeast_iff.2 (Nat.zero_le _))]
      · intro hpos
        omega

/-- Consuming takes off the runes that were ahead. -/
theorem Delivers.consume (h : Delivers o r) {n : Nat} (htake : r.ahead.take n = o.runes.take n) :
    Delivers ⟨o.runes.drop n, o.fault⟩ (r.consume n) := by
  cases h with
  | @settled k _ hs hout =>
    subst hout
    exact .settled ⟨hs.phase, hs.chunkSize_le⟩ (outlook_consume htake)
  | spent hstop hout =>
    subst hout
    exact .spent hstop rfl
  | later hahead hbreakage hended hchunk hnext =>
    -- Nothing is ahead, so that nothing is consumed.
    rw [hahead, List.take_nil] at htake
    have hdrop : o.runes.drop n = o.runes := by
      rcases List.take_eq_nil_iff.1 htake.symm with rfl | hnil
      · rfl
      · rw [hnil, List.drop_nil]
    have hsame : r.consume n = r := by
      cases r
      subst hahead
      simp [Reader.consume]
    rw [hdrop, hsame]
    exact .later hahead hbreakage hended hchunk hnext

end Reader

end SourceNotes
