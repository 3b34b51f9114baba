/-
A reader in chunks is a reader of the whole text.

`Whole` is a reader that has decoded all octets at once and keeps nothing but a
place in the text. A reader that takes octets in chunks answers every sequence of
calls as `Whole` does, up to the line that a decoding error names: that line
depends on when a chunk was fetched.

* **`Reader.Agrees`** — the invariant: what a reader has still to deliver is what
  stands behind the place of the whole text;
* **`Reader.Agrees.answer`** — one call keeps it and is answered alike;
* **`Reader.answers_eq_whole`** — all sequences of calls are answered alike, an
  error once raised is raised by every later call for runes, and a refused call
  changes nothing;
* **`Reader.answers_ne_whole_of_hugeChunk`** — a chunk size beyond `maxChunk`
  makes the first call for runes fail.
-/
import SourceNotes.Proofs.Reader.Outlook

namespace SourceNotes

open Charset

/-- A call to a reader. -/
inductive Call where
  | peek (n : Int)
  | advance (n : Int)
  deriving DecidableEq, Repr

/-- What a call answers. -/
inductive Answer where
  /-- Runes, and whether there are as many as were asked for. -/
  | runes (s : Text) (ok : Bool)
  /-- How many runes were consumed. -/
  | count (n : Nat)
  | error (e : ReadError)
  deriving DecidableEq, Repr

/-- An answer without the line that a decoding error names. -/
def Answer.unplaced : Answer → Answer
  | .error (.undecodable charset fault _) => .error (.undecodable charset fault 0)
  | a => a

/-- Answers and positions without the lines that decoding errors name. -/
def unplaced (answers : List (Answer × Position)) : List (Answer × Position) :=
  answers.map fun a => (a.1.unplaced, a.2)

/-- The call asks for a rune at least and stays within the limit. -/
def Call.AsksRunes (maxPeek : Nat) : Call → Prop
  | .peek n => 1 ≤ n ∧ n ≤ maxPeek
  | .advance n => 1 ≤ n

/-- The call is one that no reader answers. -/
def Call.Refused (maxPeek : Nat) : Call → Prop
  | .peek n => n < 0 ∨ maxPeek < n
  | .advance n => n < 0

namespace Reader

/-- The answer to a call, and the reader after it. -/
def answer (r : Reader) : Call → Answer × Reader
  | .peek n =>
    match peekOk n r with
    | .ok (s, ok) r => (.runes s ok, r)
    | .error e r => (.error e, r)
  | .advance n =>
    match advance n r with
    | .ok count r => (.count count, r)
    | .error e r => (.error e, r)

/-- The answers to a sequence of calls, each with the position after it. -/
def answers (r : Reader) : List Call → List (Answer × Position)
  | [] => []
  | c :: calls => ((r.answer c).1, (r.answer c).2.position) :: (r.answer c).2.answers calls

/-- The reader after a sequence of calls. -/
def after (r : Reader) (calls : List Call) : Reader :=
  calls.foldl (fun r c => (r.answer c).2) r

end Reader

/-- A reader of a text that is known from the start, and of the fault behind it. -/
structure Whole where
  charsetName : Text
  maxPeek : Nat
  text : Text
  fault : Option Fault
  /-- The number of runes consumed. -/
  place : Nat := 0
  place_le : place ≤ text.length := by omega

namespace Whole

/-- The reader at the start of what some octets stand for. -/
def ofOctets (k : Codec) (octets : Octets) (charsetName : Text) (maxPeek : Int) : Whole :=
  { charsetName, maxPeek := maxPeek.toNat
    text := (k.pass true octets).runes, fault := (k.pass true octets).fault }

/-- The runes that have not been consumed. -/
def rest (w : Whole) : Text := w.text.drop w.place

/-- The position of the place. -/
def position (w : Whole) : Position := Position.after {} (w.text.take w.place)

/-- The error that a call for `n` runes raises: the fault, once its place is reached. -/
def error? (w : Whole) (n : Nat) : Option ReadError :=
  if 0 < n ∧ w.place = w.text.length then
    w.fault.map fun f => .undecodable w.charsetName f w.position.line
  else none

/-- The reader further on by `n` runes, or at the end of the text. -/
def move (w : Whole) (n : Nat) : Whole :=
  { w with
    place := w.place + min n (w.text.length - w.place)
    place_le := by have := w.place_le; omega }

/-- The answer to a call, and the reader after it. -/
def answer (w : Whole) : Call → Answer × Whole
  | .peek n =>
    if n < 0 then (.error (.negativePeek n), w)
    else if w.maxPeek < n.toNat then (.error (.peekLimit n.toNat w.maxPeek), w)
    else
      match w.error? n.toNat with
      | some e => (.error e, w)
      | none => (.runes (w.rest.take n.toNat) (n.toNat ≤ w.text.length - w.place), w)
  | .advance n =>
    if n < 0 then (.error (.negativeAdvance n), w)
    else
      match w.error? n.toNat with
      | some e => (.error e, w)
      | none => (.count (min n.toNat (w.text.length - w.place)), w.move n.toNat)

/-- The answers to a sequence of calls, each with the position after it. -/
def answers (w : Whole) : List Call → List (Answer × Position)
  | [] => []
  | c :: calls => ((w.answer c).1, (w.answer c).2.position) :: (w.answer c).2.answers calls

@[simp] theorem maxPeek_answer (w : Whole) (c : Call) : (w.answer c).2.maxPeek = w.maxPeek := by
  cases c with
  | peek n =>
    rw [answer]
    repeat' split
    all_goals rfl
  | advance n =>
    rw [answer]
    repeat' split
    all_goals rfl

theorem length_rest (w : Whole) : w.rest.length = w.text.length - w.place := List.length_drop

theorem rest_move (w : Whole) (n : Nat) : (w.move n).rest = w.rest.drop n := by
  rw [List.drop_eq_drop_min, length_rest, rest, rest, List.drop_drop]
  rfl

theorem position_move (w : Whole) (n : Nat) :
    (w.move n).position = w.position.after (w.rest.take n) := by
  rw [position, position, ← Position.after_append, List.take_eq_take_min (i := n), length_rest,
    rest, ← List.take_add]
  rfl

/-- The fault is met where it stands next, by a call that asks for a rune. -/
theorem error?_of_ne {n : Nat} {w : Whole} (h : 0 < n → w.rest = [] → w.fault = none) :
    w.error? n = none := by
  unfold error?
  split
  · next hn =>
    have hnil : w.rest = [] := List.eq_nil_of_length_eq_zero (by rw [length_rest]; omega)
    rw [h hn.1 hnil, Option.map_none]
  · rfl

theorem error?_of_fault {n : Nat} {w : Whole} {f : Fault} (hn : 0 < n) (hnil : w.rest = [])
    (hf : w.fault = some f) :
    w.error? n = some (.undecodable w.charsetName f w.position.line) := by
  have hle := w.place_le
  have hlen := w.length_rest
  rw [hnil, List.length_nil] at hlen
  rw [error?, if_pos ⟨hn, by omega⟩, hf, Option.map_some]

end Whole

namespace Reader

/-- The reader `r` and the reader `w` of the whole text stand at the same place. -/
structure Agrees (k : Codec) (r : Reader) (w : Whole) : Prop where
  settled : Settled k r
  outlook_eq : r.outlook k = ⟨w.rest, w.fault⟩
  charsetName_eq : r.charsetName = w.charsetName
  maxPeek_eq : r.maxPeek = w.maxPeek
  position_eq : r.position = w.position

variable {k : Codec} {r r' : Reader} {w : Whole}

theorem Agrees.refilled (h : Agrees k r w) (hre : Refilled k r r') : Agrees k r' w :=
  ⟨hre.settled h.settled, hre.outlook_eq.trans h.outlook_eq,
    hre.charsetName_eq.trans h.charsetName_eq, hre.maxPeek_eq.trans h.maxPeek_eq,
    hre.position_eq.trans h.position_eq⟩

/-- Consuming the runes that were found moves the place over as many. -/
theorem Agrees.consume (h : Agrees k r w) {n : Nat} (htake : r.ahead.take n = w.rest.take n) :
    Agrees k (r.consume n) (w.move n) := by
  have hrunes : r.ahead.take n = (r.outlook k).runes.take n := by rw [h.outlook_eq, htake]
  refine ⟨⟨h.settled.phase, h.settled.chunkSize_le⟩, ?_, h.charsetName_eq, h.maxPeek_eq, ?_⟩
  · rw [outlook_consume hrunes, h.outlook_eq, Whole.rest_move]
    rfl
  · rw [position_consume hrunes, h.outlook_eq, h.position_eq, Whole.position_move]

/-- A reader whose next octets are at fault. -/
def Stuck (r : Reader) (fault : Fault) (line : Nat) : Prop :=
  r.breakage = some ⟨fault, line⟩ ∧ r.ahead = []

/-- Looking for runes finds what the whole text has at its place, or the fault there. -/
theorem Agrees.fill (h : Agrees k r w) (n : Nat) :
    (∃ r', r.fill n = .ok () r' ∧ Agrees k r' w ∧ r'.ahead.take n = w.rest.take n ∧
      w.error? n = none) ∨
    ∃ f line r', r.fill n = .error (.undecodable w.charsetName f line) r' ∧ Agrees k r' w ∧
      r'.Stuck f line ∧ w.error? n = some (.undecodable w.charsetName f w.position.line) := by
  -- A fault is met only when its place is reached and something is asked for.
  by_cases hfault : 0 < n ∧ w.rest = [] ∧ w.fault ≠ none
  · obtain ⟨hn, hnil, hf⟩ := hfault
    obtain ⟨f, hf⟩ := Option.ne_none_iff_exists'.1 hf
    have hout : r.outlook k = ⟨[], some f⟩ := by rw [h.outlook_eq, hnil, hf]
    obtain ⟨line, r', hr', hre, hstuck⟩ := fill_of_fault h.settled hn hout
    rw [h.charsetName_eq] at hr'
    exact .inr ⟨f, line, r', hr', h.refilled hre, hstuck, Whole.error?_of_fault hn hnil hf⟩
  · have hclean : 0 < n → w.rest = [] → w.fault = none := fun hn hnil =>
      Classical.not_not.1 fun hf => hfault ⟨hn, hnil, hf⟩
    obtain ⟨r', hr', hre, htake⟩ := fill_of_runes (n := n) h.settled (by
      rw [h.outlook_eq]; exact hclean)
    rw [h.outlook_eq] at htake
    exact .inl ⟨r', hr', h.refilled hre, htake, Whole.error?_of_ne hclean⟩

theorem answer_peek (r : Reader) (n : Int) :
    r.answer (.peek n) =
      if n < 0 then (.error (.negativePeek n), r)
      else if r.maxPeek < n.toNat then (.error (.peekLimit n.toNat r.maxPeek), r)
      else
        match r.fill n.toNat with
        | .ok () r => (.runes (r.ahead.take n.toNat) ((r.ahead.take n.toNat).length == n.toNat), r)
        | .error e r => (.error e, r) := by
  simp only [answer, peekOk, peek, look, bind, EStateM.bind, pure, EStateM.pure]
  by_cases hneg : n < 0
  · simp only [hneg, if_true]
  by_cases hlimit : r.maxPeek < n.toNat
  · simp only [hneg, hlimit, if_true, if_false]
  simp only [hneg, hlimit, if_false]
  cases r.fill n.toNat <;> rfl

theorem answer_advance (r : Reader) (n : Int) :
    r.answer (.advance n) =
      if n < 0 then (.error (.negativeAdvance n), r)
      else
        match r.fill n.toNat with
        | .ok () r => (.count (r.ahead.take n.toNat).length, r.consume n.toNat)
        | .error e r => (.error e, r) := by
  simp only [answer, advance]
  by_cases hneg : n < 0
  · simp only [hneg, if_true]
  simp only [hneg, if_false]
  cases r.fill n.toNat <;> rfl

/-- One call is answered alike, and the readers agree after it. -/
theorem Agrees.answer (h : Agrees k r w) (c : Call) :
    (r.answer c).1.unplaced = (w.answer c).1.unplaced ∧ Agrees k (r.answer c).2 (w.answer c).2 := by
  cases c with
  | peek n =>
    rw [answer_peek, Whole.answer, h.maxPeek_eq]
    split
    · exact ⟨rfl, h⟩
    split
    · exact ⟨rfl, h⟩
    rcases h.fill n.toNat with ⟨r', hr', hw, htake, hnone⟩ | ⟨f, line, r', hr', hw, -, hsome⟩
    · -- As many runes come as are asked for just when as many are left.
      have hok : ((w.rest.take n.toNat).length == n.toNat) =
          decide (n.toNat ≤ w.text.length - w.place) := by
        rw [List.length_take, w.length_rest, Bool.eq_iff_iff]
        simp only [beq_iff_eq, decide_eq_true_eq]
        omega
      rw [hr', hnone]
      refine ⟨?_, hw⟩
      simp only [htake, hok]
    · rw [hr', hsome]
      exact ⟨rfl, hw⟩
  | advance n =>
    rw [answer_advance, Whole.answer]
    split
    · exact ⟨rfl, h⟩
    rcases h.fill n.toNat with ⟨r', hr', hw, htake, hnone⟩ | ⟨f, line, r', hr', hw, -, hsome⟩
    · rw [hr', hnone]
      refine ⟨?_, hw.consume htake⟩
      simp only [htake, List.length_take, w.length_rest]
    · rw [hr', hsome]
      exact ⟨rfl, hw⟩

/-- All calls of a sequence are answered alike. -/
theorem Agrees.answers (h : Agrees k r w) (calls : List Call) :
    unplaced (r.answers calls) = unplaced (w.answers calls) := by
  induction calls generalizing r w with
  | nil => rfl
  | cons c calls ih =>
    obtain ⟨hanswer, hafter⟩ := h.answer c
    simp only [Reader.answers, Whole.answers, unplaced, List.map_cons, hanswer,
      hafter.position_eq]
    exact congrArg _ (ih hafter)

theorem Agrees.after (h : Agrees k r w) (calls : List Call) :
    ∃ w', Agrees k (r.after calls) w' ∧ w'.maxPeek = w.maxPeek := by
  induction calls generalizing r w with
  | nil => exact ⟨w, h, rfl⟩
  | cons c calls ih =>
    obtain ⟨w', hw, hmax⟩ := ih (h.answer c).2
    exact ⟨w', hw, hmax.trans (w.maxPeek_answer c)⟩

/-- Filling that meets a fault leaves the reader stuck at it. -/
theorem stuck_of_fill {n : Nat} {charset : Text} {f : Fault} {line : Nat}
    (h : r.fill n = .error (.undecodable charset f line) r') :
    r'.Stuck f line ∧ charset = r'.charsetName := by
  fun_induction Reader.fill n r with
  | case2 r _ b hb hempty =>
    cases h
    exact ⟨⟨hb, List.isEmpty_iff.1 hempty⟩, rfl⟩
  | case5 r _ _ _ r₁ _ _ ih => exact ih h
  | case6 r _ _ _ e r₁ hchunk =>
    -- A chunk is taken whole or is refused for another reason.
    cases h
    unfold takeChunk at hchunk
    dsimp only at hchunk
    split at hchunk
    · cases hchunk
    · split at hchunk <;> cases hchunk
  | _ => cases h

/-- A call that raises a decoding error leaves the reader stuck at it. -/
theorem stuck_of_answer {c : Call} {charset : Text} {f : Fault} {line : Nat}
    (hc : (r.answer c).1 = .error (.undecodable charset f line)) :
    (r.answer c).2.Stuck f line ∧ charset = (r.answer c).2.charsetName := by
  cases c with
  | peek n =>
    rw [answer_peek] at hc ⊢
    by_cases hneg : n < 0
    · simp [hneg] at hc
    by_cases hlimit : r.maxPeek < n.toNat
    · simp [hneg, hlimit] at hc
    rw [if_neg hneg, if_neg hlimit] at hc ⊢
    cases hr : r.fill n.toNat with
    | ok _ r' => simp [hr] at hc
    | error e r' =>
      simp only [hr, Answer.error.injEq] at hc
      exact stuck_of_fill (hc ▸ hr)
  | advance n =>
    rw [answer_advance] at hc ⊢
    by_cases hneg : n < 0
    · simp [hneg] at hc
    rw [if_neg hneg] at hc ⊢
    cases hr : r.fill n.toNat with
    | ok _ r' => simp [hr] at hc
    | error e r' =>
      simp only [hr, Answer.error.injEq] at hc
      exact stuck_of_fill (hc ▸ hr)

/-- A stuck reader does not fill: it has all it can have, or meets its fault. -/
theorem Stuck.fill {f : Fault} {line : Nat} (h : r.Stuck f line) (n : Nat) :
    r.fill n = if n = 0 then .ok () r else .error (.undecodable r.charsetName f line) r := by
  obtain ⟨hb, hnil⟩ := h
  rw [Reader.fill, hnil, hb]
  rcases n with _ | n <;> simp [hasAtLeast]

theorem Stuck.consume {f : Fault} {line : Nat} (h : r.Stuck f line) (n : Nat) :
    r.consume n = r := by
  obtain ⟨hb, hnil⟩ := h
  have htake : r.ahead.take n = [] := by rw [hnil, List.take_nil]
  have hdrop : r.ahead.drop n = r.ahead := by rw [hnil, List.drop_nil]
  rw [Reader.consume, htake, hdrop]
  rfl

/-- No call moves a stuck reader, and each that asks for a rune raises the error. -/
theorem Stuck.answer {f : Fault} {line : Nat} (h : r.Stuck f line) (c : Call) :
    (r.answer c).2 = r ∧ (c.AsksRunes r.maxPeek →
      (r.answer c).1 = .error (.undecodable r.charsetName f line)) := by
  cases c with
  | peek n =>
    rw [answer_peek, h.fill, Call.AsksRunes]
    by_cases hneg : n < 0
    · exact ⟨by simp [hneg], fun hn => by omega⟩
    by_cases hlimit : r.maxPeek < n.toNat
    · exact ⟨by simp [hneg, hlimit], fun hn => by omega⟩
    by_cases hzero : n.toNat = 0
    · exact ⟨by simp [hneg, hzero], fun hn => by omega⟩
    · simp [hneg, hlimit, hzero]
  | advance n =>
    rw [answer_advance, h.fill, Call.AsksRunes]
    by_cases hneg : n < 0
    · exact ⟨by simp [hneg], fun hn => by omega⟩
    by_cases hzero : n.toNat = 0
    · exact ⟨by simp [hneg, hzero, h.consume], fun hn => by omega⟩
    · simp [hneg, hzero]

theorem Stuck.after {f : Fault} {line : Nat} (h : r.Stuck f line) (calls : List Call) :
    r.after calls = r := by
  induction calls with
  | nil => rfl
  | cons c calls ih => rw [Reader.after, List.foldl_cons, (h.answer c).1]; exact ih

/-- A refused call changes nothing. -/
theorem answer_of_refused {c : Call} (h : c.Refused r.maxPeek) :
    ∃ e, r.answer c = (.error e, r) := by
  cases c with
  | peek n =>
    rw [answer_peek]
    by_cases hneg : n < 0
    · exact ⟨.negativePeek n, if_pos hneg⟩
    · have hlimit : r.maxPeek < n.toNat := by rw [Call.Refused] at h; omega
      exact ⟨.peekLimit n.toNat r.maxPeek, by rw [if_neg hneg, if_pos hlimit]⟩
  | advance n =>
    rw [answer_advance]
    exact ⟨.negativeAdvance n, if_pos h⟩

/-- A reader whose chunks are too large raises an error at each call for a rune. -/
theorem Blocked.answer (hr : r.Blocked) {c : Call} (hc : c.AsksRunes r.maxPeek) :
    r.answer c = (.error (.chunkTooLarge r.chunkSize), r) := by
  cases c with
  | peek n =>
    obtain ⟨hpos, hlimit⟩ := hc
    rw [answer_peek, if_neg (by omega), if_neg (by omega), hr.fill_eq (by omega)]
  | advance n =>
    have hpos : 1 ≤ n := hc
    rw [answer_advance, if_neg (by omega), hr.fill_eq (by omega)]

/-- A reader just opened agrees with the reader of its whole text at the start. -/
theorem agrees_ofOctets (octets : Octets) {charsetName : Text} {maxPeek chunkSize : Int}
    (hname : Charset.ofName charsetName = .ok (.plain k)) (hpeek : 1 ≤ maxPeek)
    (hchunk : chunkSize ≤ maxChunk) :
    ∃ r, ofOctets octets charsetName maxPeek chunkSize = .ok r ∧ r.maxPeek = maxPeek.toNat ∧
      Agrees k r (.ofOctets k octets charsetName maxPeek) := by
  obtain ⟨r, hr, hcharset, hlimit, hpos, hout, hsettled, -⟩ :=
    outlook_ofOctets octets chunkSize hname hpeek
  exact ⟨r, hr, hlimit, hsettled hchunk, hout, hcharset, hlimit, hpos⟩

/-- A reader in chunks answers every sequence of calls like the reader of the whole text,
apart from the line in a decoding error. Such an error is raised by every later call for
runes, and a refused call changes nothing. -/
theorem answers_eq_whole (octets : Octets) {charsetName : Text} {maxPeek chunkSize : Int}
    (hname : Charset.ofName charsetName = .ok (.plain k)) (hpeek : 1 ≤ maxPeek)
    (hchunk : chunkSize ≤ maxChunk) :
    ∃ r, ofOctets octets charsetName maxPeek chunkSize = .ok r ∧
      (∀ calls, unplaced (r.answers calls) =
        unplaced ((Whole.ofOctets k octets charsetName maxPeek).answers calls)) ∧
      (∀ calls c charset f line,
        ((r.after calls).answer c).1 = .error (.undecodable charset f line) →
        ∀ more c', c'.AsksRunes maxPeek.toNat →
          ((r.after (calls ++ c :: more)).answer c').1 = .error (.undecodable charset f line)) ∧
      ∀ calls c, c.Refused maxPeek.toNat →
        ∃ e, (r.after calls).answer c = (.error e, r.after calls) := by
  obtain ⟨r, hr, hlimit, hagrees⟩ := agrees_ofOctets octets hname hpeek hchunk
  refine ⟨r, hr, hagrees.answers, fun calls c charset f line hc more c' hc' => ?_,
    fun calls c hc => ?_⟩
  · obtain ⟨w, hw, hmax⟩ := hagrees.after calls
    obtain ⟨hstuck, rfl⟩ := stuck_of_answer hc
    -- No call in between moves the reader from its error.
    have hafter : r.after (calls ++ c :: more) = ((r.after calls).answer c).2 := by
      rw [Reader.after, List.foldl_append, List.foldl_cons]
      exact hstuck.after more
    rw [hafter]
    refine (hstuck.answer c').2 ?_
    rwa [(hw.answer c).2.maxPeek_eq, w.maxPeek_answer, hmax]
  · obtain ⟨w, hw, hmax⟩ := hagrees.after calls
    refine answer_of_refused ?_
    rwa [hw.maxPeek_eq, hmax]

/-- Octets that end inside a rune, taken one at a time: the rune before them is delivered,
then the fault is met. -/
theorem answers_eq_whole_cut :
    Charset.ofName "utf-8".toList = .ok (.plain .utf8) ∧ (1 : Int) ≤ 8 ∧ (1 : Int) ≤ maxChunk ∧
      ∃ r, ofOctets [0x61, 0xF0, 0x9F] "utf-8".toList 8 1 = .ok r ∧
        unplaced (r.answers [.peek 2, .advance 5, .peek 1]) =
          [(.runes ['a'] false, {}), (.count 1, { column := 1 }),
            (.error (.undecodable "utf-8".toList .unexpectedEnd 0), { column := 1 })] := by
  refine ⟨rfl, by decide, by decide, ?_⟩
  obtain ⟨r, hr, hanswers, -⟩ :=
    answers_eq_whole [0x61, 0xF0, 0x9F] (show ofName "utf-8".toList = .ok (.plain .utf8) from rfl)
      (show (1 : Int) ≤ 8 by decide) (show (1 : Int) ≤ maxChunk by decide)
  have hpass : Codec.utf8.pass true [0x61, 0xF0, 0x9F] =
      ⟨['a'], [0xF0, 0x9F], some .unexpectedEnd⟩ := by
    rw [Codec.pass_of_rune true (c := 'a') (t := [0xF0, 0x9F]) rfl,
      Codec.pass_of_short true (f := .unexpectedEnd) rfl]
    rfl
  refine ⟨r, hr, (hanswers _).trans ?_⟩
  simp only [Whole.ofOctets, hpass]
  rfl

/-- A chunk size that cannot be addressed makes the first call for a rune fail. -/
theorem answers_ne_whole_of_hugeChunk :
    ∃ r, ofOctets [0x61] "utf-8".toList 8 9223372036854775808 = .ok r ∧
      unplaced (r.answers [.peek 1]) ≠
        unplaced ((Whole.ofOctets .utf8 [0x61] "utf-8".toList 8).answers [.peek 1]) := by
  let r : Reader :=
    { charsetName := "utf-8".toList, maxPeek := 8, chunkSize := 9223372036854775808
      decoder := .ofCharset Charset.utf8, unread := [0x61] }
  have hblocked : r.Blocked := ⟨rfl, rfl, rfl, by decide⟩
  have hanswer : r.answer (.peek 1) = (.error (.chunkTooLarge 9223372036854775808), r) :=
    hblocked.answer (c := .peek 1) ⟨by decide, by decide⟩
  have hreader : unplaced (r.answers [.peek 1]) =
      [(.error (.chunkTooLarge 9223372036854775808), {})] := by
    rw [answers, hanswer]
    rfl
  have hpass : Codec.utf8.pass true [0x61] = ⟨['a'], [], none⟩ :=
    Codec.pass_utf8_of_ascii true (by simp)
  have hwhole : unplaced ((Whole.ofOctets .utf8 [0x61] "utf-8".toList 8).answers [.peek 1]) =
      [(.runes ['a'] true, {})] := by
    simp only [Whole.ofOctets, hpass]
    rfl
  refine ⟨r, rfl, ?_⟩
  rw [hreader, hwhole]
  decide

end Reader

end SourceNotes
