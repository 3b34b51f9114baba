/-
Scans make progress, and come to an end.

Each call for a comment is answered after so many calls to the reader, a number bounded by the
runes that they consume, whatever the rules are. With each comment at least the start of its rule
has been consumed, so that there are not more comments than runes; and once there is no comment,
there is none ever after.

* **`Scanner.exists_calls_of_comments`** — so many comments have consumed as many runes;
* **`Scanner.progress`** — the calls for comments of a whole scan, from the first to the one that
  finds none and those that come later.
-/
import SourceNotes.Proofs.Comment.Asked

namespace SourceNotes

open Charset

namespace Scanner

variable {s : Scanner} {n : Nat}

theorem rules_after (s : Scanner) (n : Nat) : (s.after n).rules = s.rules := by
  induction n with
  | zero => rfl
  | succ n ih =>
    obtain ⟨-, hrules, -⟩ := exists_calls_next (s.after n)
    rw [after_succ, hrules, ih]

/-- As many comments as there have been, as many runes have been consumed at least. -/
theorem exists_calls_of_comments (h : ∀ i < n, ∃ c, (s.after i).next.1 = .ok (some c)) :
    ∃ calls, (s.after n).head.reader = s.head.reader.after calls ∧
      n ≤ (s.head.reader.consumed calls).length := by
  induction n with
  | zero => exact ⟨[], rfl, Nat.zero_le _⟩
  | succ n ih =>
    obtain ⟨calls, hreader, hle⟩ := ih fun i hi => h i (Nat.lt_succ_of_lt hi)
    obtain ⟨c, hc⟩ := h n (Nat.lt_succ_self n)
    obtain ⟨more, -, hreader', -, hcomment, -⟩ := exists_calls_next (s.after n)
    obtain ⟨hsuffix, start, -, hne, hstart⟩ := hcomment c hc
    -- The start of the rule is one rune at least, and it is among those consumed.
    have hpos : 0 < ((s.after n).head.reader.consumed more).length :=
      Nat.lt_of_lt_of_le (List.length_pos_iff.2 hne)
        (Nat.le_trans hstart.length_le hsuffix.length_le)
    refine ⟨calls ++ more, ?_, ?_⟩
    · rw [after_succ, hreader', hreader, Reader.after_append]
    · rw [Reader.consumed_append, ← hreader, List.length_append]
      omega

/-- A scan of any octets by any rules: every call for a comment is answered after a number of calls
to the reader that is bounded by what they consume; what a call that finds a comment consumes ends
with the comment, which begins with the start of its rule; there are `count` comments, not more
than runes, and all calls behind them find none and leave the scanner as it is. -/
theorem progress (rules : Rules) (octets : Octets) {charsetName : Text} {k : Codec}
    {maxPeek chunkSize : Int} (hname : Charset.ofName charsetName = .ok (.plain k))
    (hpeek : 1 ≤ maxPeek) (hchunk : chunkSize ≤ Reader.maxChunk) :
    ∃ r count last, Reader.ofOctets octets charsetName maxPeek chunkSize = .ok r ∧
      (∀ n, ∃ calls,
        ((ofReader rules r).after (n + 1)).head.reader =
          ((ofReader rules r).after n).head.reader.after calls ∧
        calls.length ≤
          rules.cost * ((((ofReader rules r).after n).head.reader.consumed calls).length + 1) ∧
        ∀ c, ((ofReader rules r).after n).next.1 = .ok (some c) →
          c.text <:+ ((ofReader rules r).after n).head.reader.consumed calls ∧
          ∃ start, c.form.start? = some start ∧ start ≠ [] ∧ start <+: c.text) ∧
      count ≤ (k.pass true octets).runes.length ∧
      (∀ n < count, ∃ c, ((ofReader rules r).after n).next.1 = .ok (some c)) ∧
      ∀ n, count ≤ n → ((ofReader rules r).after n).next = (.ok none, last) := by
  obtain ⟨r, hr, -, -, hpos, hout, hsettled, -⟩ :=
    Reader.outlook_ofOctets octets chunkSize hname hpeek
  have hdel : r.Delivers (r.outlook k) := .settled (hsettled hchunk) rfl
  obtain ⟨segments, hseg⟩ :=
    exists_segmentation rules (r.outlook k).fault.isSome [] (r.outlook k).runes
  obtain ⟨comments, last, hdrain, -⟩ :=
    drain_of_delivers hdel hpos (hsettled hchunk).chunkSize_le hseg
  have hanswer (n : Nat) : ((ofReader rules r).after n).next.1 = .ok comments[n]? :=
    (answer_of_drain hdrain n).1
  have hsome (n : Nat) (hn : n < comments.length) :
      ∃ c, ((ofReader rules r).after n).next.1 = .ok (some c) :=
    ⟨comments[n], by rw [hanswer, List.getElem?_eq_getElem hn]⟩
  refine ⟨r, comments.length, last, hr, ?_, ?_, hsome, ?_⟩
  · intro n
    obtain ⟨calls, -, hreader, hlen, hcomment, -⟩ := exists_calls_next ((ofReader rules r).after n)
    rw [rules_after] at hlen
    exact ⟨calls, by rw [after_succ, hreader], hlen, hcomment⟩
  · -- What the comments have consumed is the beginning of the text.
    obtain ⟨calls, -, hle⟩ := exists_calls_of_comments hsome
    obtain ⟨o', -, hruns, -⟩ := hdel.after calls
    have htext : (k.pass true octets).runes = r.consumed calls ++ o'.runes := by
      rw [← hruns, hout]
    rw [htext, List.length_append]
    exact Nat.le_trans hle (Nat.le_add_right ..)
  · intro n hn
    refine Prod.ext ?_ ?_
    · rw [hanswer, List.getElem?_eq_none hn]
    · rw [← after_succ]
      exact (answer_of_drain hdrain (n + 1)).2 (Nat.lt_succ_of_le hn)

/-- In a text of three runes there is no fourth comment, and none later. -/
theorem progress_three :
    Charset.ofName "utf-8".toList = .ok (.plain .utf8) ∧ (1 : Int) ≤ 8 ∧
      (1 : Int) ≤ Reader.maxChunk ∧
      ∃ r last, Reader.ofOctets [0x23, 0x0A, 0x23] "utf-8".toList 8 1 = .ok r ∧
        ∀ n, 3 ≤ n → ((ofReader { lines := [⟨['#'], by decide⟩] } r).after n).next =
          (.ok none, last) := by
  refine ⟨rfl, by decide, by decide, ?_⟩
  obtain ⟨r, count, last, hr, -, hcount, -, hnone⟩ :=
    progress { lines := [⟨['#'], by decide⟩] } [0x23, 0x0A, 0x23]
      (show Charset.ofName "utf-8".toList = .ok (.plain .utf8) from rfl)
      (show (1 : Int) ≤ 8 by decide) (show (1 : Int) ≤ Reader.maxChunk by decide)
  rw [Codec.pass_utf8_of_ascii true (by simp)] at hcount
  exact ⟨r, last, hr, fun n hn => hnone n (Nat.le_trans hcount hn)⟩

end Scanner

end SourceNotes
