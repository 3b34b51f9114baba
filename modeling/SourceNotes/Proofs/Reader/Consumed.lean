/-
What calls to a reader consume, and where the reader stands after them.

A call decodes more of the octets or does not, and then moves over some of the runes ahead or over
none. The runes that calls have moved over are one text, and the position is what this text says,
also if some of the calls raised an error.

* **`Reader.Fetched`** — a reader after more of its octets have been decoded, or after the attempt
  failed (`fetched_fill`);
* **`Reader.exists_fetched_answer`** — a call fetches, and then consumes `consumedBy` of what is
  ahead;
* **`Reader.Delivers.after`** — what is consumed is the beginning of what the reader delivers;
* **`Reader.position_of_queries`** — the position, line and column, after any questions to a
  reader; which of them leave it alone; and that a peek shows what the next advance consumes.
-/
import SourceNotes.Proofs.Reader.Utf8Mark

namespace SourceNotes

namespace Reader

variable {r r' r'' : Reader} {n m : Nat} {o : Outlook} {c : Call} {e : ReadError}

/-! ### Fetching -/

/-- No chunk is taken any more. -/
def Spent (r : Reader) : Prop := r.breakage ≠ none ∨ r.ended = true

/-- The reader `r'` is `r` after more of its octets have been decoded, or after that failed. -/
structure Fetched (r r' : Reader) : Prop where
  place : SamePlace r r'
  ahead_le : r.ahead <+: r'.ahead
  eq_of_spent : r.Spent → r' = r
  /-- A fault that was met on the way is put down under the line of the reader. -/
  line_eq : r.breakage = none → ∀ b, r'.breakage = some b → b.line = r.position.line

theorem Fetched.refl (r : Reader) : Fetched r r := by
  refine ⟨.refl r, List.prefix_refl _, fun _ => rfl, ?_⟩
  intro hnone b hb
  rw [hnone] at hb
  cases hb

theorem Fetched.trans (h : Fetched r r') (h' : Fetched r' r'') : Fetched r r'' := by
  refine ⟨h.place.trans h'.place, h.ahead_le.trans h'.ahead_le, ?_, ?_⟩
  · intro hspent
    obtain rfl := h.eq_of_spent hspent
    exact h'.eq_of_spent hspent
  · intro hnone b hb
    cases hmid : r'.breakage with
    | none =>
      rw [← h.place.position_eq]
      exact h'.line_eq hmid b hb
    | some b' =>
      have hspent : r'.Spent := .inl (by rw [hmid]; exact Option.some_ne_none b')
      obtain rfl := h'.eq_of_spent hspent
      exact h.line_eq hnone b hb

theorem fetched_takeChunk (hb : r.breakage = none) (he : r.ended = false) :
    Fetched r (stateOf (takeChunk r)) := by
  have hopen : ¬ r.Spent := by
    rintro (hne | hended)
    · exact hne hb
    · rw [he] at hended
      cases hended
  have hnone (b : Breakage) (h : r.breakage = some b) : b.line = r.position.line := by
    rw [hb] at h
    cases h
  unfold takeChunk
  dsimp only
  split
  · exact .refl r
  split
  · exact ⟨⟨rfl, rfl, rfl, rfl⟩, List.prefix_append _ _, (absurd · hopen), fun _ => hnone⟩
  · refine ⟨⟨rfl, rfl, rfl, rfl⟩, List.prefix_append _ _, (absurd · hopen), ?_⟩
    intro _ b h
    cases h
    rfl
  · exact ⟨⟨rfl, rfl, rfl, rfl⟩, List.prefix_refl _, (absurd · hopen), fun _ => hnone⟩

/-- Filling fetches, whether it succeeds or fails. -/
theorem fetched_fill (n : Nat) (r : Reader) : Fetched r (stateOf (r.fill n)) := by
  fun_induction fill n r with
  | case5 r _ hb he r₁ hchunk _ ih =>
    have hfirst := fetched_takeChunk hb he
    rw [hchunk] at hfirst
    exact hfirst.trans ih
  | case6 r _ hb he e r₁ hchunk =>
    have hfirst := fetched_takeChunk hb he
    rwa [hchunk] at hfirst
  | _ => exact .refl _

theorem Fetched.of_fill_ok (h : r.fill n = .ok () r') : Fetched r r' := by
  have hfetched := fetched_fill n r
  rwa [h] at hfetched

theorem Fetched.of_fill_error (h : r.fill n = .error e r') : Fetched r r' := by
  have hfetched := fetched_fill n r
  rwa [h] at hfetched

/-- There are `n` runes ahead, or as many of them as will ever be. -/
def Holds (n : Nat) (r : Reader) : Prop :=
  n ≤ r.ahead.length ∨ r.Spent ∧ (r.breakage = none ∨ r.ahead ≠ [])

theorem fill_of_holds (h : r.Holds n) : r.fill n = .ok () r := by
  rcases h with hlen | ⟨hspent, hclean⟩
  · rw [fill, if_pos (hasAtLeast_iff.2 hlen)]
  · rcases fill_of_spent hspent n with ⟨hfill, -⟩ | ⟨b, -, hb, hnil, -⟩
    · exact hfill
    · rcases hclean with hnone | hne
      · rw [hb] at hnone
        cases hnone
      · exact absurd hnil hne

theorem holds_of_fill (h : r.fill n = .ok () r') : r'.Holds n := by
  fun_induction fill n r with
  | case1 r hmore =>
    cases h
    exact .inl (hasAtLeast_iff.1 hmore)
  | case2 => cases h
  | case3 r _ b hb hne =>
    cases h
    exact .inr ⟨.inl (by simp [hb]), .inr (by simpa using hne)⟩
  | case4 r _ hb he =>
    cases h
    exact .inr ⟨.inr he, .inl hb⟩
  | case5 r _ _ _ r₁ _ _ ih => exact ih h
  | case6 => cases h

/-- What is held stays as it is while more is fetched. -/
theorem Fetched.holds (h : Fetched r r') (hholds : r.Holds n) :
    r'.Holds n ∧ r'.ahead.take n = r.ahead.take n := by
  rcases hholds with hlen | ⟨hspent, hclean⟩
  · obtain ⟨t, ht⟩ := h.ahead_le
    rw [← ht]
    refine ⟨.inl ?_, List.take_append_of_le_length hlen⟩
    rw [← ht, List.length_append]
    omega
  · obtain rfl := h.eq_of_spent hspent
    exact ⟨.inr ⟨hspent, hclean⟩, rfl⟩

/-! ### Calls -/

/-- The runes that a call consumes. -/
def consumedBy (r : Reader) : Call → Text
  | .peek _ => []
  | .advance n =>
    match r.fill n.toNat with
    | .ok () r => r.ahead.take n.toNat
    | .error _ _ => []

/-- The runes that a sequence of calls consumes. -/
def consumed (r : Reader) : List Call → Text
  | [] => []
  | c :: calls => r.consumedBy c ++ (r.answer c).2.consumed calls

theorem after_append (r : Reader) (calls more : List Call) :
    r.after (calls ++ more) = (r.after calls).after more :=
  List.foldl_append

theorem consumed_append (r : Reader) (calls more : List Call) :
    r.consumed (calls ++ more) = r.consumed calls ++ (r.after calls).consumed more := by
  induction calls generalizing r with
  | nil => rfl
  | cons c calls ih =>
    rw [List.cons_append, consumed, ih, consumed, List.append_assoc]
    rfl

/-- A call fetches first, and then consumes some of what is ahead. -/
theorem exists_fetched_answer (r : Reader) (c : Call) :
    ∃ r', Fetched r r' ∧ r.consumedBy c <+: r'.ahead ∧
      (r.answer c).2 = r'.consume (r.consumedBy c).length := by
  cases c with
  | peek n =>
    have hkeep (r' : Reader) : r'.consume (r.consumedBy (.peek n)).length = r' := consume_zero r'
    refine ⟨(r.answer (.peek n)).2, ?_, List.nil_prefix, (hkeep _).symm⟩
    rw [answer_peek]
    by_cases hneg : n < 0
    · rw [if_pos hneg]
      exact .refl r
    by_cases hlimit : r.maxPeek < n.toNat
    · rw [if_neg hneg, if_pos hlimit]
      exact .refl r
    rw [if_neg hneg, if_neg hlimit]
    cases hfill : r.fill n.toNat with
    | ok _ r' => exact .of_fill_ok hfill
    | error e r' => exact .of_fill_error hfill
  | advance n =>
    rw [answer_advance, consumedBy]
    by_cases hneg : n < 0
    · have hzero : n.toNat = 0 := by omega
      rw [if_pos hneg, hzero, fill_zero]
      exact ⟨r, .refl r, List.nil_prefix, (consume_zero r).symm⟩
    rw [if_neg hneg]
    cases hfill : r.fill n.toNat with
    | error e r' => exact ⟨r', .of_fill_error hfill, List.nil_prefix, (consume_zero r').symm⟩
    | ok _ r' =>
      refine ⟨r', .of_fill_ok hfill, List.take_prefix _ _, ?_⟩
      have htake : r'.ahead.take (r'.ahead.take n.toNat).length = r'.ahead.take n.toNat := by
        rw [← List.prefix_iff_eq_take.1 (List.take_prefix n.toNat r'.ahead)]
      have hdrop : r'.ahead.drop (r'.ahead.take n.toNat).length = r'.ahead.drop n.toNat := by
        rw [List.length_take, ← List.drop_eq_drop_min]
      show r'.consume n.toNat = r'.consume _
      rw [consume, consume, htake, hdrop]

/-- A call moves the position over what it consumes. -/
theorem position_answer (r : Reader) (c : Call) :
    (r.answer c).2.position = r.position.after (r.consumedBy c) := by
  obtain ⟨r', hfetched, hfront, hanswer⟩ := exists_fetched_answer r c
  rw [hanswer, consume, ← List.prefix_iff_eq_take.1 hfront, hfetched.place.position_eq]

/-- Calls move the position over all that they consume. -/
theorem position_after (r : Reader) (calls : List Call) :
    (r.after calls).position = r.position.after (r.consumed calls) := by
  induction calls generalizing r with
  | nil => rfl
  | cons c calls ih =>
    rw [consumed, Position.after_append, ← position_answer]
    exact ih _

/-- A call that consumes nothing leaves the reader in its place, with the same runes ahead. -/
theorem fetched_answer (h : r.consumedBy c = []) : Fetched r (r.answer c).2 := by
  obtain ⟨r', hfetched, -, hanswer⟩ := exists_fetched_answer r c
  rw [h] at hanswer
  rw [hanswer]
  exact (consume_zero r').symm ▸ hfetched

/-- A call that raises an error consumes nothing. -/
theorem consumedBy_of_error (h : (r.answer c).1 = .error e) : r.consumedBy c = [] := by
  cases c with
  | peek n => rfl
  | advance n =>
    rw [answer_advance] at h
    rw [consumedBy]
    by_cases hneg : n < 0
    · have hzero : n.toNat = 0 := by omega
      rw [hzero, fill_zero]
      rfl
    · rw [if_neg hneg] at h
      cases hfill : r.fill n.toNat with
      | ok _ r' =>
        rw [hfill] at h
        cases h
      | error e' r' => rfl

/-- A call that advances tells how many runes it consumed. -/
theorem length_consumedBy {count : Nat} {n : Int} (h : (r.answer (.advance n)).1 = .count count) :
    (r.consumedBy (.advance n)).length = count := by
  rw [answer_advance] at h
  rw [consumedBy]
  by_cases hneg : n < 0
  · rw [if_pos hneg] at h
    cases h
  · rw [if_neg hneg] at h
    cases hfill : r.fill n.toNat with
    | ok _ r' =>
      rw [hfill] at h
      cases h
      rfl
    | error e' r' =>
      rw [hfill] at h
      cases h

/-- A peek that shows runes has fetched them. -/
theorem holds_of_peek {n : Int} {s : Text} {ok : Bool}
    (h : (r.answer (.peek n)).1 = .runes s ok) :
    0 ≤ n ∧ (r.answer (.peek n)).2.Holds n.toNat ∧
      s = (r.answer (.peek n)).2.ahead.take n.toNat := by
  rw [answer_peek] at h ⊢
  by_cases hneg : n < 0
  · rw [if_pos hneg] at h
    cases h
  by_cases hlimit : r.maxPeek < n.toNat
  · rw [if_neg hneg, if_pos hlimit] at h
    cases h
  rw [if_neg hneg, if_neg hlimit] at h ⊢
  cases hfill : r.fill n.toNat with
  | error e r' =>
    rw [hfill] at h
    cases h
  | ok _ r' =>
    rw [hfill] at h
    cases h
    exact ⟨by omega, holds_of_fill hfill, rfl⟩

/-- An advance over runes that have been fetched consumes them. -/
theorem advance_of_holds {n : Int} (hn : 0 ≤ n) (h : r.Holds n.toNat) :
    r.answer (.advance n) = (.count (r.ahead.take n.toNat).length, r.consume n.toNat) ∧
      r.consumedBy (.advance n) = r.ahead.take n.toNat := by
  rw [answer_advance, if_neg (by omega), consumedBy, fill_of_holds h]
  exact ⟨rfl, rfl⟩

/-! ### What is delivered -/

/-- What a call consumes is taken off what the reader has to deliver. -/
theorem Delivers.answer (h : Delivers o r) (c : Call) :
    ∃ o', (r.answer c).2.Delivers o' ∧ o.runes = r.consumedBy c ++ o'.runes ∧
      o'.fault = o.fault := by
  cases c with
  | peek n =>
    refine ⟨o, ?_, rfl, rfl⟩
    rw [answer_peek]
    by_cases hneg : n < 0
    · rwa [if_pos hneg]
    by_cases hlimit : r.maxPeek < n.toNat
    · rwa [if_neg hneg, if_pos hlimit]
    rw [if_neg hneg, if_neg hlimit]
    rcases h.fill n.toNat with ⟨r', hfill, hdel, -⟩ | ⟨f, line, r', hfill, hdel, -⟩
    · rwa [hfill]
    · rwa [hfill]
  | advance n =>
    rw [answer_advance, consumedBy]
    by_cases hneg : n < 0
    · have hzero : n.toNat = 0 := by omega
      rw [if_pos hneg, hzero, fill_zero]
      exact ⟨o, h, rfl, rfl⟩
    rw [if_neg hneg]
    rcases h.fill n.toNat with ⟨r', hfill, hdel, -, htake, -⟩ | ⟨f, line, r', hfill, hdel, -⟩
    · rw [hfill]
      refine ⟨_, hdel.consume htake, ?_, rfl⟩
      show o.runes = r'.ahead.take n.toNat ++ o.runes.drop n.toNat
      rw [htake, List.take_append_drop]
    · rw [hfill]
      exact ⟨o, hdel, rfl, rfl⟩

/-- What calls consume is the beginning of what the reader has to deliver, and the rest is still to
come. -/
theorem Delivers.after (h : Delivers o r) (calls : List Call) :
    ∃ o', (r.after calls).Delivers o' ∧ o.runes = r.consumed calls ++ o'.runes ∧
      o'.fault = o.fault := by
  induction calls generalizing r o with
  | nil => exact ⟨o, h, rfl, rfl⟩
  | cons c calls ih =>
    obtain ⟨o₁, hdel₁, hruns₁, hfault₁⟩ := h.answer c
    obtain ⟨o₂, hdel₂, hruns₂, hfault₂⟩ := ih hdel₁
    refine ⟨o₂, hdel₂, ?_, hfault₂.trans hfault₁⟩
    rw [hruns₁, hruns₂, consumed, List.append_assoc]

/-- An advance consumes as many of the runes to come as it asks for. -/
theorem Delivers.consumedBy_advance (h : Delivers o r) {n : Int}
    (hclean : o.runes = [] → o.fault = none) :
    r.consumedBy (.advance n) = o.runes.take n.toNat := by
  rw [consumedBy]
  rcases h.fill n.toNat with ⟨r', hfill, -, -, htake, -⟩ | ⟨f, line, r', -, -, -, -, rfl⟩
  · rw [hfill]
    exact htake
  · exact absurd (hclean rfl) (Option.some_ne_none f)

end Reader

/-! ### Questions -/

/-- What can be asked of a reader: a call, or how many runes it has ahead. -/
inductive Query where
  | call (c : Call)
  | buffered
  deriving DecidableEq, Repr

/-- What a reader replies. -/
inductive Reply where
  | answer (a : Answer)
  | buffered (n : Nat)
  deriving DecidableEq, Repr

/-- The call that a question is, if it is one. -/
def Query.call? : Query → Option Call
  | .call c => some c
  | .buffered => none

/-- The question is not one to advance. -/
def Query.OnlyLooks (q : Query) : Prop := ∀ n, q ≠ .call (.advance n)

namespace Reader

/-- The reply to a question, and the reader after it. -/
def reply (r : Reader) : Query → Reply × Reader
  | .call c => (.answer (r.answer c).1, (r.answer c).2)
  | .buffered => (.buffered r.buffered, r)

/-- The reader after a sequence of questions. -/
def replied (r : Reader) (queries : List Query) : Reader :=
  queries.foldl (fun r q => (r.reply q).2) r

/-- Asking how many runes are ahead changes nothing. -/
theorem replied_eq (r : Reader) (queries : List Query) :
    r.replied queries = r.after (queries.filterMap Query.call?) := by
  induction queries generalizing r with
  | nil => rfl
  | cons q queries ih =>
    cases q with
    | call c => exact ih _
    | buffered => exact ih _

theorem fetched_reply {q : Query} (h : q.OnlyLooks ∨ ∃ e, (r.reply q).1 = .answer (.error e)) :
    Fetched r (r.reply q).2 ∧ ∀ c, q.call? = some c → r.consumedBy c = [] := by
  cases q with
  | buffered => exact ⟨.refl r, fun c hc => by cases hc⟩
  | call c =>
    have hnone : r.consumedBy c = [] := by
      rcases h with hlooks | ⟨e, he⟩
      · cases c with
        | peek n => rfl
        | advance n => exact absurd rfl (hlooks n)
      · exact consumedBy_of_error (Reply.answer.inj he)
    refine ⟨fetched_answer hnone, ?_⟩
    intro c' hc'
    cases hc'
    exact hnone

/-- Looking again and again only fetches. -/
theorem fetched_replied {queries : List Query} (h : ∀ q ∈ queries, q.OnlyLooks) :
    Fetched r (r.replied queries) := by
  induction queries generalizing r with
  | nil => exact .refl r
  | cons q queries ih =>
    obtain ⟨hq, hqueries⟩ := List.forall_mem_cons.1 h
    exact (fetched_reply (.inl hq)).1.trans (ih hqueries)

/-- After any questions to a reader just opened, errors among the replies or not, its line and its
column are those behind the text that was consumed, which is the beginning of what the octets stand
for. A question that only looks or gets an error leaves the position alone, and the runes ahead
where they are. What a peek shows is what the next advance consumes, whatever is looked at in
between. -/
theorem position_of_queries {octets : Octets} {charsetName : Text} {maxPeek chunkSize : Int}
    (h : ofOctets octets charsetName maxPeek chunkSize = .ok r) (queries : List Query) :
    (r.replied queries).position.line =
        1 + (r.consumed (queries.filterMap Query.call?)).count '\n' ∧
      (r.replied queries).position.column =
        (Text.lastLine (r.consumed (queries.filterMap Query.call?))).length ∧
      (∀ charset, Charset.ofName charsetName = .ok charset → chunkSize ≤ maxChunk →
        ¬ charset.Unmarked octets → ∃ o, charset.Yields octets o ∧
          r.consumed (queries.filterMap Query.call?) <+: o.runes) ∧
      (∀ n count, ((r.replied queries).reply (.call (.advance n))).1 = .answer (.count count) →
        ((r.replied queries).consumedBy (.advance n)).length = count) ∧
      (∀ q, (q.OnlyLooks ∨ ∃ e, ((r.replied queries).reply q).1 = .answer (.error e)) →
        (r.replied (queries ++ [q])).position = (r.replied queries).position ∧
        (r.replied queries).ahead <+: (r.replied (queries ++ [q])).ahead ∧
        r.consumed ((queries ++ [q]).filterMap Query.call?) =
          r.consumed (queries.filterMap Query.call?)) ∧
      ∀ n s ok looks, (∀ q ∈ looks, q.OnlyLooks) →
        ((r.replied queries).reply (.call (.peek n))).1 = .answer (.runes s ok) →
        ((r.replied (queries ++ .call (.peek n) :: looks)).reply (.call (.advance n))).1 =
            .answer (.count s.length) ∧
          (r.replied (queries ++ .call (.peek n) :: looks)).consumedBy (.advance n) = s := by
  have hposition : (r.replied queries).position =
      Position.after {} (r.consumed (queries.filterMap Query.call?)) := by
    obtain ⟨-, -, -, hstart⟩ := fields_ofOctets h
    rw [replied_eq, position_after, hstart]
  have hmore (more : List Query) : r.replied (queries ++ more) = (r.replied queries).replied more :=
    List.foldl_append
  refine ⟨?_, ?_, ?_, ?_, ?_, ?_⟩
  · rw [hposition, Position.line_after]
  · rw [hposition, column_after]
  · intro charset hname hchunk hmarked
    obtain ⟨r', o, hr', hyields, hdel⟩ := exists_delivers hname (one_le_of_ofOctets h) hchunk hmarked
    rw [h] at hr'
    cases hr'
    obtain ⟨o', -, hruns, -⟩ := hdel.after (queries.filterMap Query.call?)
    exact ⟨o, hyields, o'.runes, hruns.symm⟩
  · intro n count hcount
    exact length_consumedBy (Reply.answer.inj hcount)
  · intro q hq
    obtain ⟨hfetched, hnothing⟩ := fetched_reply hq
    rw [hmore]
    refine ⟨hfetched.place.position_eq, hfetched.ahead_le, ?_⟩
    rw [List.filterMap_append, consumed_append]
    cases q with
    | buffered => exact List.append_nil _
    | call c =>
      rw [replied_eq] at hnothing
      have hc : (r.after (queries.filterMap Query.call?)).consumed [c] = [] := by
        rw [consumed, hnothing c rfl]
        rfl
      exact (congrArg _ hc).trans (List.append_nil _)
  · intro n s ok looks hlooks hpeek
    obtain ⟨hn, hholds, hs⟩ := holds_of_peek (Reply.answer.inj hpeek)
    -- What the peek has fetched is still there when the advance comes.
    obtain ⟨hstill, htake⟩ := (fetched_replied hlooks).holds hholds
    obtain ⟨hanswer, hconsumed⟩ := advance_of_holds hn hstill
    rw [htake, ← hs] at hanswer hconsumed
    rw [hmore]
    exact ⟨congrArg Reply.answer (congrArg Prod.fst hanswer), hconsumed⟩

/-- Two lines, decoded octet by octet: behind the newline a look ahead leaves the position alone. -/
theorem position_of_queries_twoLines :
    ∃ r, ofOctets [0x61, 0x0A, 0x62] "utf-8".toList 8 1 = .ok r ∧
      (r.replied [.call (.advance 2), .buffered, .call (.peek 5)]).position.line = 2 ∧
      (r.replied [.call (.advance 2), .buffered, .call (.peek 5)]).position.column = 0 := by
  obtain ⟨r, hr, -, hdel⟩ := exists_delivers_plain [0x61, 0x0A, 0x62] 1
    (show Charset.ofName "utf-8".toList = .ok (.plain .utf8) from rfl) (show (1 : Int) ≤ 8 by decide)
  have hread : Charset.Codec.utf8.read [0x61, 0x0A, 0x62] = ⟨['a', '\n', 'b'], none⟩ := by
    rw [Charset.Codec.read, Charset.Codec.pass_utf8_of_ascii true (by simp)]
    rfl
  have hconsumed : r.consumed [.advance 2, .peek 5] = ['a', '\n'] := by
    have hfirst := (hdel (by decide)).consumedBy_advance (n := 2) (by rw [hread]; exact fun _ => rfl)
    rw [consumed, hfirst, hread]
    rfl
  obtain ⟨hline, hcolumn, -⟩ :=
    position_of_queries hr [.call (.advance 2), .buffered, .call (.peek 5)]
  have hcalls : [Query.call (.advance 2), .buffered, .call (.peek 5)].filterMap Query.call? =
      [.advance 2, .peek 5] := rfl
  rw [hcalls, hconsumed] at hline hcolumn
  exact ⟨r, hr, hline, hcolumn⟩

end Reader

end SourceNotes
