/-
What a reader has still to deliver.

`Reader.outlook` puts together what a reader knows about the octets that have not
been delivered: the runes ahead, those that the octets held back and the unread
octets stand for, and the fault that ends them.

* **`Reader.Refilled`** — another state of a reader with the same outlook and at
  least as many runes ahead; taking chunks leads to nothing else
  (`refilled_takeChunk`);
* **`Reader.fill_of_runes`**, **`Reader.fill_of_fault`** — filling finds as many of
  the coming runes as are asked for, or the fault if none comes before it;
* **`Reader.outlook_consume`** — consuming drops runes from the outlook;
* **`Reader.Blocked`** — a reader whose chunks are too large to be taken fails without
  a change (`Blocked.fill_eq`);
* **`Reader.outlook_ofOctets`** — a reader just opened has the whole text before it.
-/
import SourceNotes.Proofs.Charset.Split
import SourceNotes.Reader

namespace SourceNotes

open Charset

/-- Runes to come, and the fault behind them if they do not go on to the end of the
octets. -/
structure Outlook where
  runes : Text
  fault : Option Fault
  deriving DecidableEq, Repr

namespace Reader

/-- The runes that octets not yet decoded stand for in the codec `k`, and the fault that
ends them. -/
def undecoded (k : Codec) (r : Reader) : Outlook :=
  match r.breakage with
  | some b => ⟨[], some b.fault⟩
  | none =>
    if r.ended then ⟨[], none⟩
    else
      let p := k.pass true (r.decoder.held ++ r.unread)
      ⟨p.runes, p.fault⟩

/-- What a reader that reads with the codec `k` has still to deliver. -/
def outlook (k : Codec) (r : Reader) : Outlook :=
  ⟨r.ahead ++ (r.undecoded k).runes, (r.undecoded k).fault⟩

/-- A reader that can take chunks and decodes them with the codec `k`. -/
structure Settled (k : Codec) (r : Reader) : Prop where
  phase : r.decoder.phase = .settled k
  chunkSize_le : r.chunkSize ≤ maxChunk

/-- The reader `r'` is `r` after more of its octets have been decoded. -/
structure Refilled (k : Codec) (r r' : Reader) : Prop where
  outlook_eq : r'.outlook k = r.outlook k
  ahead_le : r.ahead <+: r'.ahead
  phase_eq : r'.decoder.phase = r.decoder.phase
  charsetName_eq : r'.charsetName = r.charsetName
  maxPeek_eq : r'.maxPeek = r.maxPeek
  chunkSize_eq : r'.chunkSize = r.chunkSize
  position_eq : r'.position = r.position

variable {k : Codec} {r r' r'' : Reader}

theorem Refilled.refl (k : Codec) (r : Reader) : Refilled k r r :=
  ⟨rfl, List.prefix_refl _, rfl, rfl, rfl, rfl, rfl⟩

theorem Refilled.trans (h : Refilled k r r') (h' : Refilled k r' r'') : Refilled k r r'' :=
  ⟨h'.outlook_eq.trans h.outlook_eq, h.ahead_le.trans h'.ahead_le, h'.phase_eq.trans h.phase_eq,
    h'.charsetName_eq.trans h.charsetName_eq, h'.maxPeek_eq.trans h.maxPeek_eq,
    h'.chunkSize_eq.trans h.chunkSize_eq, h'.position_eq.trans h.position_eq⟩

theorem Refilled.settled (h : Refilled k r r') (hs : Settled k r) : Settled k r' :=
  ⟨h.phase_eq.trans hs.phase, by rw [h.chunkSize_eq]; exact hs.chunkSize_le⟩

/-- A chunk that is taken moves runes from the octets to the runes ahead, and a fault
from the octets to the reader. -/
theorem refilled_takeChunk (hs : Settled k r) (hb : r.breakage = none) (he : r.ended = false) :
    ∃ r', takeChunk r = .ok () r' ∧ Refilled k r r' := by
  have houtlook : r.outlook k =
      ⟨r.ahead ++ (k.pass true (r.decoder.held ++ r.unread)).runes,
        (k.pass true (r.decoder.held ++ r.unread)).fault⟩ := by
    simp [outlook, undecoded, hb, he]
  have hunread : r.unread.take r.chunkSize ++ r.unread.drop r.chunkSize = r.unread :=
    List.take_append_drop ..
  unfold takeChunk
  rw [if_neg (Nat.not_lt.2 hs.chunkSize_le)]
  simp only [Decoder.feed, hs.phase, Decoder.feedSettled]
  rcases hchunk : r.unread.take r.chunkSize with _ | ⟨b, chunk⟩
  · -- The octets are at their end; what was held back is decoded for good.
    have hnil : r.unread = [] := by
      have := r.chunkSize_pos
      rcases List.take_eq_nil_iff.1 hchunk with h | h
      · omega
      · exact h
    rw [hnil, List.append_nil] at houtlook
    simp only [List.isEmpty_nil, List.append_nil]
    cases hf : (k.pass true r.decoder.held).fault with
    | none =>
      refine ⟨_, rfl, ⟨?_, List.prefix_append _ _, hs.phase.symm, rfl, rfl, rfl, rfl⟩⟩
      rw [houtlook]
      simp [outlook, undecoded, hb, hf]
    | some f =>
      refine ⟨_, rfl, ⟨?_, List.prefix_append _ _, hs.phase.symm, rfl, rfl, rfl, rfl⟩⟩
      rw [houtlook]
      simp [outlook, undecoded, hf]
  · rw [hchunk] at hunread
    have happend : r.decoder.held ++ r.unread =
        r.decoder.held ++ b :: chunk ++ r.unread.drop r.chunkSize := by
      rw [List.append_assoc, hunread]
    rw [happend] at houtlook
    simp only [List.isEmpty_cons]
    rcases hp : k.pass false (r.decoder.held ++ b :: chunk) with ⟨runes, rest, fault⟩
    cases fault with
    | none =>
      refine ⟨_, rfl, ⟨?_, List.prefix_append _ _, hs.phase.symm, rfl, rfl, rfl, rfl⟩⟩
      rw [houtlook, Codec.pass_append k true hp]
      simp [outlook, undecoded, hb]
    | some f =>
      refine ⟨_, rfl, ⟨?_, List.prefix_append _ _, hs.phase.symm, rfl, rfl, rfl, rfl⟩⟩
      rw [houtlook, Codec.pass_append_of_fault k true hp]
      simp [outlook, undecoded]

/-- Filling up to `n` runes finds the first `n` runes to come, or meets the fault that
nothing comes before. -/
theorem fill_spec (hs : Settled k r) (n : Nat) :
    (∃ r', r.fill n = .ok () r' ∧ Refilled k r r' ∧
      r'.ahead.take n = (r.outlook k).runes.take n ∧
      (0 < n → (r.outlook k).runes = [] → (r.outlook k).fault = none)) ∨
    ∃ b r', r.fill n = .error (.undecodable r.charsetName b.fault b.line) r' ∧
      Refilled k r r' ∧ r'.breakage = some b ∧ r'.ahead = [] ∧ 0 < n ∧
      r.outlook k = ⟨[], some b.fault⟩ := by
  -- A chunk that is taken keeps the outlook, so that only the ends of the filling matter.
  fun_induction fill n r with
  | case1 r h =>
    -- Enough runes are ahead.
    have hlen := hasAtLeast_iff.1 h
    refine .inl ⟨r, rfl, .refl k r, ?_, fun hn hnil => ?_⟩
    · rw [outlook, List.take_append_of_le_length hlen]
    · simp only [outlook, List.append_eq_nil_iff] at hnil
      simp only [hnil.1, List.length_nil] at hlen
      omega
  | case2 r h b hb hempty =>
    -- The octets are at fault, and all runes before the fault have been consumed.
    have hnil : r.ahead = [] := by simpa using hempty
    refine .inr ⟨b, r, rfl, .refl k r, hb, hnil, ?_, ?_⟩
    · rcases n with _ | n
      · simp [hasAtLeast] at h
      · exact Nat.succ_pos n
    · simp [outlook, undecoded, hb, hnil]
  | case3 r h b hb hempty =>
    -- The octets are at fault, but some runes stand before the fault.
    refine .inl ⟨r, rfl, .refl k r, ?_, fun _ hnil => ?_⟩
    · simp [outlook, undecoded, hb]
    · simp [outlook, undecoded, hb] at hnil
      simp [hnil] at hempty
  | case4 r h hb he =>
    -- The octets have come to their end.
    refine .inl ⟨r, rfl, .refl k r, ?_, fun _ _ => ?_⟩
    · simp [outlook, undecoded, hb, he]
    · simp [outlook, undecoded, hb, he]
  | case5 r h hb he r₁ h₁ hlt ih =>
    obtain ⟨r₂, hr₂, hre⟩ := refilled_takeChunk hs hb he
    obtain rfl : r₁ = r₂ := by rw [h₁] at hr₂; cases hr₂; rfl
    rw [← hre.outlook_eq, ← hre.charsetName_eq]
    rcases ih (hre.settled hs) with ⟨r', hr', hre', hrest⟩ | ⟨b, r', hr', hre', hrest⟩
    · exact .inl ⟨r', hr', hre.trans hre', hrest⟩
    · exact .inr ⟨b, r', hr', hre.trans hre', hrest⟩
  | case6 r h hb he e r₁ h₁ =>
    obtain ⟨r₂, hr₂, -⟩ := refilled_takeChunk hs hb he
    rw [h₁] at hr₂
    cases hr₂

/-- Filling succeeds if some rune is to come or the octets are not at fault. -/
theorem fill_of_runes (hs : Settled k r) {n : Nat}
    (h : 0 < n → (r.outlook k).runes = [] → (r.outlook k).fault = none) :
    ∃ r', r.fill n = .ok () r' ∧ Refilled k r r' ∧
      r'.ahead.take n = (r.outlook k).runes.take n := by
  rcases fill_spec hs n with ⟨r', hr', hre, htake, -⟩ | ⟨b, r', -, -, -, -, hn, hout⟩
  · exact ⟨r', hr', hre, htake⟩
  · rw [hout] at h
    cases h hn rfl

/-- Filling fails if the fault comes before any rune. -/
theorem fill_of_fault (hs : Settled k r) {n : Nat} (hn : 0 < n) {f : Fault}
    (h : r.outlook k = ⟨[], some f⟩) :
    ∃ line r', r.fill n = .error (.undecodable r.charsetName f line) r' ∧ Refilled k r r' ∧
      r'.breakage = some ⟨f, line⟩ ∧ r'.ahead = [] := by
  rcases fill_spec hs n with ⟨r', -, -, -, hnone⟩ | ⟨b, r', hr', hre, hb, hnil, -, hout⟩
  · have := hnone hn (by rw [h])
    rw [h] at this
    cases this
  · rw [h] at hout
    cases hout
    exact ⟨b.line, r', hr', hre, hb, hnil⟩

/-- Consuming drops runes from those to come, where it finds as many ahead. -/
theorem outlook_consume {n : Nat} (h : r.ahead.take n = (r.outlook k).runes.take n) :
    (r.consume n).outlook k = ⟨(r.outlook k).runes.drop n, (r.outlook k).fault⟩ := by
  have hundecoded : (r.consume n).undecoded k = r.undecoded k := rfl
  have hruns : r.ahead.drop n ++ (r.undecoded k).runes =
      (r.ahead ++ (r.undecoded k).runes).drop n := by
    rcases Nat.lt_or_ge r.ahead.length n with hlt | hle
    · -- All that is to come is ahead, else more than `r.ahead` would have been found.
      have hall : r.undecoded k = ⟨[], (r.undecoded k).fault⟩ := by
        have hlen := congrArg List.length h
        simp only [outlook, List.length_take, List.length_append] at hlen
        have : (r.undecoded k).runes = [] := List.eq_nil_of_length_eq_zero (by omega)
        rw [← this]
      rw [hall]
      simp
    · exact (List.drop_append_of_le_length hle).symm
  rw [outlook, hundecoded, outlook, ← hruns]
  rfl

theorem position_consume {n : Nat} (h : r.ahead.take n = (r.outlook k).runes.take n) :
    (r.consume n).position = r.position.after ((r.outlook k).runes.take n) := by
  rw [consume, h]

/-! ### Chunks that cannot be addressed -/

/-- A reader that has taken nothing and can take nothing, as its chunks are too large. -/
structure Blocked (r : Reader) : Prop where
  ahead_eq : r.ahead = []
  breakage_eq : r.breakage = none
  ended_eq : r.ended = false
  maxChunk_lt : maxChunk < r.chunkSize

/-- With nothing ahead filling begins by taking a chunk, and fails if that does. -/
theorem fill_of_takeChunk_error (hahead : r.ahead = []) (hbreakage : r.breakage = none)
    (hended : r.ended = false) {e : ReadError} (htake : takeChunk r = .error e r') {n : Nat}
    (hpos : 0 < n) : r.fill n = .error e r' := by
  have hmore : ¬ hasAtLeast n r.ahead = true := by
    rw [hasAtLeast_iff, hahead, List.length_nil]
    omega
  rw [fill, if_neg hmore]
  split
  · next b hb => rw [hbreakage] at hb; cases hb
  · split
    · next he => rw [hended] at he; cases he
    · split <;> rename_i heq <;> rw [htake] at heq <;> cases heq
      rfl

/-- Every attempt to fill fails and changes nothing. -/
theorem Blocked.fill_eq (hr : r.Blocked) {n : Nat} (hpos : 0 < n) :
    r.fill n = .error (.chunkTooLarge r.chunkSize) r := by
  have htake : takeChunk r = .error (.chunkTooLarge r.chunkSize) r := by
    rw [takeChunk, if_pos hr.maxChunk_lt]
  exact fill_of_takeChunk_error hr.ahead_eq hr.breakage_eq hr.ended_eq htake hpos

/-- Every look for a rune fails and changes nothing. -/
theorem Blocked.look_eq (hr : r.Blocked) {n : Nat} (hpos : 0 < n) (hn : n ≤ r.maxPeek) :
    look n r = .error (.chunkTooLarge r.chunkSize) r := by
  rw [look, if_neg (Nat.not_lt.2 hn), hr.fill_eq hpos]

/-! ### A reader just opened -/

/-- A reader just opened has the whole text to deliver, unless its chunks are too large. -/
theorem outlook_ofOctets (octets : Octets) {charsetName : Text} {maxPeek : Int}
    (chunkSize : Int) (hname : Charset.ofName charsetName = .ok (.plain k))
    (hpeek : 1 ≤ maxPeek) :
    ∃ r, ofOctets octets charsetName maxPeek chunkSize = .ok r ∧ r.charsetName = charsetName ∧
      r.maxPeek = maxPeek.toNat ∧ r.position = {} ∧
      r.outlook k = ⟨(k.pass true octets).runes, (k.pass true octets).fault⟩ ∧
      (chunkSize ≤ maxChunk → r.Settled k) ∧ (maxChunk < chunkSize → r.Blocked) := by
  unfold ofOctets
  rw [if_neg (by omega), hname]
  have hone : (1 : Int) ≤ maxChunk := by decide
  refine ⟨_, rfl, rfl, rfl, rfl, rfl, fun hchunk => ⟨rfl, ?_⟩, fun hchunk => ⟨rfl, rfl, rfl, ?_⟩⟩
  · show (max chunkSize 1).toNat ≤ maxChunk
    omega
  · show maxChunk < (max chunkSize 1).toNat
    omega

end Reader

end SourceNotes
