/-
Readers that answer alike.

What a reader answers depends on what it has to deliver and on where it stands, not on how it
decodes: two readers that have the same runes and the same fault before them, at the same position
and with the same limit of lookahead, answer all calls alike. Decoding errors differ in the
character set that they name and in the line, which depends on when a chunk was fetched.

* **`Reader.Alike`** — two readers with the same before them;
* **`Reader.Alike.answer`** — one call is answered alike, and the readers stay alike;
* **`Reader.Alike.answers`** — all sequences of calls are answered alike.
-/
import SourceNotes.Proofs.Reader.Charsets

namespace SourceNotes

open Charset

/-- An answer without the character set and the line that a decoding error names. -/
def Answer.bare : Answer → Answer
  | .error (.undecodable _ fault _) => .error (.undecodable [] fault 0)
  | a => a

/-- Answers and positions without the character sets and lines that decoding errors name. -/
def bare (answers : List (Answer × Position)) : List (Answer × Position) :=
  answers.map fun a => (a.1.bare, a.2)

theorem Answer.bare_unplaced (a : Answer) : a.unplaced.bare = a.bare := by
  unfold unplaced
  split <;> rfl

theorem bare_unplaced (answers : List (Answer × Position)) :
    bare (unplaced answers) = bare answers := by
  simp only [bare, unplaced, List.map_map, Function.comp_def, Answer.bare_unplaced]

namespace Reader

/-- Two readers with the same before them: the same to deliver, or chunks too large to be taken. -/
structure Alike (r r' : Reader) : Prop where
  maxPeek_eq : r.maxPeek = r'.maxPeek
  position_eq : r.position = r'.position
  prospect : (∃ o, r.Delivers o ∧ r'.Delivers o) ∨
    r.Blocked ∧ r'.Blocked ∧ r.chunkSize = r'.chunkSize

variable {r r' : Reader}

theorem Alike.of_delivers {o : Outlook} {s s' : Reader} (h : Alike r r') (hs : SamePlace r s)
    (hs' : SamePlace r' s') (hdel : s.Delivers o) (hdel' : s'.Delivers o) : Alike s s' :=
  ⟨by rw [hs.maxPeek_eq, hs'.maxPeek_eq, h.maxPeek_eq],
    by rw [hs.position_eq, hs'.position_eq, h.position_eq], .inl ⟨o, hdel, hdel'⟩⟩

/-- Both readers find the same runes, and stay alike also if these are consumed, or both meet the
same fault. -/
theorem Alike.fill (h : Alike r r') (n : Nat) :
    (∃ s s', r.fill n = .ok () s ∧ r'.fill n = .ok () s' ∧ s.ahead.take n = s'.ahead.take n ∧
      Alike s s' ∧ Alike (s.consume n) (s'.consume n)) ∨
    ∃ e e' s s', r.fill n = .error e s ∧ r'.fill n = .error e' s' ∧
      (Answer.error e).bare = (Answer.error e').bare ∧ Alike s s' := by
  rcases h.prospect with ⟨o, hdel, hdel'⟩ | ⟨hblocked, hblocked', hsize⟩
  · rcases hdel.fill n with ⟨s, hs, hsdel, hplace, htake, hclean⟩ | ⟨f, line, s, hs, hsdel, hplace,
      hn, ho⟩
    · rcases hdel'.fill n with ⟨s', hs', hsdel', hplace', htake', -⟩ | ⟨f', line', s', -, -, -, hn,
        ho⟩
      · have halike := h.of_delivers hplace hplace' hsdel hsdel'
        refine .inl ⟨s, s', hs, hs', htake.trans htake'.symm, halike, halike.maxPeek_eq, ?_,
          .inl ⟨_, hsdel.consume htake, hsdel'.consume htake'⟩⟩
        show s.position.after (s.ahead.take n) = s'.position.after (s'.ahead.take n)
        rw [halike.position_eq, htake, htake']
      · -- A fault that one reader meets is before the other one too.
        subst ho
        cases hclean hn rfl
    · rcases hdel'.fill n with ⟨s', -, -, -, -, hclean⟩ | ⟨f', line', s', hs', hsdel', hplace', -,
        ho'⟩
      · subst ho
        cases hclean hn rfl
      · rw [ho] at ho'
        cases ho'
        exact .inr ⟨_, _, s, s', hs, hs', rfl, h.of_delivers hplace hplace' hsdel hsdel'⟩
  · rcases n with _ | n
    · exact .inl ⟨r, r', r.fill_zero, r'.fill_zero, rfl, h, h⟩
    · have hpos := Nat.succ_pos n
      exact .inr ⟨_, _, r, r', hblocked.fill_eq hpos, hblocked'.fill_eq hpos, by rw [hsize], h⟩

/-- One call is answered alike, and the readers stay alike. -/
theorem Alike.answer (h : Alike r r') (c : Call) :
    (r.answer c).1.bare = (r'.answer c).1.bare ∧ Alike (r.answer c).2 (r'.answer c).2 := by
  cases c with
  | peek n =>
    rw [answer_peek, answer_peek, h.maxPeek_eq]
    split
    · exact ⟨rfl, h⟩
    split
    · exact ⟨rfl, h⟩
    rcases h.fill n.toNat with ⟨s, s', hs, hs', htake, halike, -⟩ | ⟨e, e', s, s', hs, hs', he,
      halike⟩
    · rw [hs, hs']
      dsimp only
      rw [htake]
      exact ⟨rfl, halike⟩
    · rw [hs, hs']
      exact ⟨he, halike⟩
  | advance n =>
    rw [answer_advance, answer_advance]
    split
    · exact ⟨rfl, h⟩
    rcases h.fill n.toNat with ⟨s, s', hs, hs', htake, -, hconsumed⟩ | ⟨e, e', s, s', hs, hs', he,
      halike⟩
    · rw [hs, hs']
      dsimp only
      rw [htake]
      exact ⟨rfl, hconsumed⟩
    · rw [hs, hs']
      exact ⟨he, halike⟩

/-- All calls of a sequence are answered alike. -/
theorem Alike.answers (h : Alike r r') (calls : List Call) :
    bare (r.answers calls) = bare (r'.answers calls) := by
  induction calls generalizing r r' with
  | nil => rfl
  | cons c calls ih =>
    obtain ⟨hanswer, hafter⟩ := h.answer c
    simp only [Reader.answers, bare, List.map_cons, hanswer, hafter.position_eq]
    exact congrArg _ (ih hafter)

/-! ### Readers just opened -/

/-- Two readers just opened with the same limits are alike if they have the same to deliver. -/
theorem alike_of_ofOctets {octets octets' : Octets} {name name' : Text} {maxPeek chunkSize : Int}
    (h : ofOctets octets name maxPeek chunkSize = .ok r)
    (h' : ofOctets octets' name' maxPeek chunkSize = .ok r')
    (hdel : chunkSize ≤ maxChunk → ∃ o, r.Delivers o ∧ r'.Delivers o) : Alike r r' := by
  obtain ⟨-, hlimit, hsize, hpos⟩ := fields_ofOctets h
  obtain ⟨-, hlimit', hsize', hpos'⟩ := fields_ofOctets h'
  refine ⟨hlimit.trans hlimit'.symm, hpos.trans hpos'.symm, ?_⟩
  by_cases hchunk : chunkSize ≤ maxChunk
  · exact .inl (hdel hchunk)
  · rw [Int.not_le] at hchunk
    exact .inr ⟨blocked_of_ofOctets h hchunk, blocked_of_ofOctets h' hchunk,
      hsize.trans hsize'.symm⟩

end Reader

end SourceNotes
