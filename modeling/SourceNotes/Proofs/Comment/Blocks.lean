/-
Where block comments end.

The end of a flat block comment is at the first place behind its start where its stop stands with
an open gate. A nested one is told by a grammar: between its delimiters are runes at which neither
delimiter counts, and nested comments of its own kind; where the stop counts, it is an end.

* **`reads_flat_iff`**, **`reads_nested_iff`** — what a scan reads of a block comment, by first
  places and by the grammar;
* **`BlockRule.Inside.reads`**, **`BlockRule.unwinds_of_reads`** — the count of the starts that are
  open keeps to the grammar;
* **`Scanner.next_block`** — the block comments that a scan delivers.
-/
import SourceNotes.Proofs.Comment.Lines
import SourceNotes.Proofs.Comment.Steps
import SourceNotes.Proofs.Text.First

namespace SourceNotes

open Head Text Charset

/-! ### The grammar -/

namespace BlockRule

/-- The stop stands between the two texts, and counts there. -/
def StopsAt (rule : BlockRule) (before after : Text) : Prop :=
  rule.openAfter before = true ∧ startsWith rule.stop after = true

/-- The start stands between the two texts, and counts there. -/
def StartsAt (rule : BlockRule) (before after : Text) : Prop :=
  rule.openAfter before = true ∧ startsWith rule.start after = true

/-- Behind `before` and in front of `rest`, the text is one that a nested comment may have between
its delimiters. -/
inductive Inside (rule : BlockRule) : Text → Text → Text → Prop
  | nil {before rest : Text} : Inside rule before [] rest
  | rune {before s rest : Text} {c : Char} (hstop : ¬ rule.StopsAt before (c :: (s ++ rest)))
      (hstart : ¬ rule.StartsAt before (c :: (s ++ rest)))
      (hnext : Inside rule (before ++ [c]) s rest) : Inside rule before (c :: s) rest
  | block {before s t rest : Text}
      (hstop : ¬ rule.StopsAt before (rule.start ++ (s ++ (rule.stop ++ (t ++ rest)))))
      (hopen : rule.openAfter before = true)
      (hinside : Inside rule (before ++ rule.start) s (rule.stop ++ (t ++ rest)))
      (hclose : rule.openAfter (before ++ (rule.start ++ s)) = true)
      (hnext : Inside rule (before ++ (rule.start ++ (s ++ rule.stop))) t rest) :
      Inside rule before (rule.start ++ (s ++ (rule.stop ++ t))) rest

/-- Behind `before` and in front of `rest`, the text is a nested comment. -/
def IsNest (rule : BlockRule) (before s rest : Text) : Prop :=
  ∃ t, s = rule.start ++ (t ++ rule.stop) ∧ rule.openAfter before = true ∧
    rule.Inside (before ++ rule.start) t (rule.stop ++ rest) ∧
    rule.openAfter (before ++ (rule.start ++ t)) = true

/-- Behind `before` and in front of `rest`, the text is a flat comment: it has its end at the first
place where the stop counts. -/
def IsFlat (rule : BlockRule) (before s rest : Text) : Prop :=
  ∃ t, s = rule.start ++ (t ++ rule.stop) ∧
    First (fun u v => rule.StopsAt (before ++ (rule.start ++ u)) v) t (rule.stop ++ rest)

/-- Behind `before` and in front of `rest`, the text is a comment by the rule. -/
def Spans (rule : BlockRule) (before s rest : Text) : Prop :=
  if rule.nested then rule.IsNest before s rest else rule.IsFlat before s rest

variable {rule : BlockRule} {before after s rest : Text} {cut : Bool} {depth : Nat} {b : Unit}

/-! ### Decisions -/

theorem stopsAt_append_stop (hopen : rule.openAfter before = true) (rest : Text) :
    rule.StopsAt before (rule.stop ++ rest) :=
  ⟨hopen, List.isPrefixOf_iff_prefix.2 (List.prefix_append ..)⟩

theorem startsAt_append_start (hopen : rule.openAfter before = true) (rest : Text) :
    rule.StartsAt before (rule.start ++ rest) :=
  ⟨hopen, List.isPrefixOf_iff_prefix.2 (List.prefix_append ..)⟩

theorem decideBlock_zero_of_stopsAt (h : rule.StopsAt before after) :
    decideBlock rule 0 before after = .last rule.stop.length () := by
  unfold decideBlock
  rw [h.1, h.2]
  rfl

theorem decideBlock_succ_of_stopsAt (h : rule.StopsAt before after) (depth : Nat) :
    decideBlock rule (depth + 1) before after = .more rule.stop.length depth := by
  unfold decideBlock
  rw [h.1, h.2]
  rfl

theorem decideBlock_of_startsAt (hstop : ¬ rule.StopsAt before after)
    (hnested : rule.nested = true) (h : rule.StartsAt before after) (depth : Nat) :
    decideBlock rule depth before after = .more rule.start.length (depth + 1) := by
  have hno : startsWith rule.stop after = false := Bool.eq_false_iff.2 fun hs => hstop ⟨h.1, hs⟩
  unfold decideBlock
  rw [hno, h.1, h.2, hnested]
  rfl

theorem decideBlock_of_not (hstop : ¬ rule.StopsAt before after)
    (hstart : rule.nested = true → ¬ rule.StartsAt before after) (depth : Nat) :
    decideBlock rule depth before after = .more 1 depth := by
  unfold StopsAt at hstop
  unfold StartsAt at hstart
  unfold decideBlock
  rw [if_neg (by simpa using hstop), if_neg]
  simp only [Bool.and_eq_true, not_and]
  exact fun hopen hs => hstart hopen.2 ⟨hopen.1, hs⟩

theorem decideBlock_ne_stop : decideBlock rule depth before after ≠ .stop b := by
  intro hd
  unfold decideBlock at hd
  split at hd
  · split at hd <;> cases hd
  · split at hd <;> cases hd

/-! ### Flat comments -/

theorem reads_of_first {t : Text} (hflat : rule.nested = false)
    (h : First (fun u v => rule.StopsAt (before ++ u) v) t (rule.stop ++ rest)) :
    Reads (decideBlock rule) cut 0 before (t ++ rule.stop) rest () := by
  induction t generalizing before with
  | nil =>
    have hstop := h.holds
    rw [List.append_nil] at hstop
    exact .last (decideBlock_zero_of_stopsAt hstop) rule.stop_ne_nil
  | cons c t ih =>
    -- The place in front of `c` comes before the first one where the stop counts.
    have hno : ¬ rule.StopsAt before (c :: (t ++ (rule.stop ++ rest))) := by
      intro hstop
      have := h.least [] _ rfl (by rwa [List.append_nil])
      simp at this
    have hnext : First (fun u v => rule.StopsAt (before ++ [c] ++ u) v) t (rule.stop ++ rest) := by
      simp only [List.append_assoc]
      exact h.of_prepend (w := [c])
    refine .more (u := [c]) ?_ (List.cons_ne_nil _ _) (ih hnext)
    show decideBlock rule 0 before (c :: (t ++ rule.stop ++ rest)) = _
    rw [List.append_assoc]
    exact decideBlock_of_not hno (fun hn => by rw [hflat] at hn; cases hn) 0

theorem exists_first_of_reads (hflat : rule.nested = false)
    (h : Reads (decideBlock rule) cut depth before s rest b) (hdepth : depth = 0) :
    ∃ t, s = t ++ rule.stop ∧
      First (fun u v => rule.StopsAt (before ++ u) v) t (rule.stop ++ rest) := by
  induction h with
  | stop hd _ => exact absurd hd decideBlock_ne_stop
  | @last depth before s rest b hd _ =>
    subst hdepth
    by_cases hstop : rule.StopsAt before (s ++ rest)
    · rw [decideBlock_zero_of_stopsAt hstop] at hd
      obtain rfl := eq_of_startsWith hstop.2 (Decision.last.inj hd).1
      exact ⟨[], rfl, .here (by rwa [List.append_nil])⟩
    · rw [decideBlock_of_not hstop fun hn => by rw [hflat] at hn; cases hn] at hd
      cases hd
  | @more depth depth' before u s rest b hd _ _ ih =>
    subst hdepth
    by_cases hstop : rule.StopsAt before (u ++ (s ++ rest))
    · rw [decideBlock_zero_of_stopsAt hstop] at hd
      cases hd
    · rw [decideBlock_of_not hstop fun hn => by rw [hflat] at hn; cases hn] at hd
      obtain ⟨hlen, hdepth'⟩ := Decision.more.inj hd
      obtain ⟨t, rfl, hfirst⟩ := ih hdepth'.symm
      refine ⟨u ++ t, (List.append_assoc ..).symm, First.prepend (fun v w htext hlt => ?_) ?_⟩
      · obtain rfl : v = [] := List.length_eq_zero_iff.1 (by omega)
        rw [List.append_nil, ← List.nil_append w, ← htext, ← List.append_assoc t]
        exact hstop
      · simpa only [List.append_assoc] using hfirst

/-- A scan reads a flat comment up to the first place where its stop counts. -/
theorem reads_flat_iff (hflat : rule.nested = false) :
    Reads (decideBlock rule) cut 0 before s rest () ↔
      ∃ t, s = t ++ rule.stop ∧
        First (fun u v => rule.StopsAt (before ++ u) v) t (rule.stop ++ rest) := by
  constructor
  · exact fun h => exists_first_of_reads hflat h rfl
  · rintro ⟨t, rfl, hfirst⟩
    exact reads_of_first hflat hfirst

/-! ### Nested comments -/

/-- A scan with one more open start than `depth` reads as many ends, and between them what a nested
comment may have inside. -/
inductive Unwinds (rule : BlockRule) : Nat → Text → Text → Text → Prop
  | last {before s rest : Text} (hinside : rule.Inside before s (rule.stop ++ rest))
      (hclose : rule.openAfter (before ++ s) = true) : Unwinds rule 0 before (s ++ rule.stop) rest
  | more {depth : Nat} {before s t rest : Text}
      (hinside : rule.Inside before s (rule.stop ++ (t ++ rest)))
      (hclose : rule.openAfter (before ++ s) = true)
      (hnext : Unwinds rule depth (before ++ (s ++ rule.stop)) t rest) :
      Unwinds rule (depth + 1) before (s ++ (rule.stop ++ t)) rest

/-- Something in front that may be inside of a comment. -/
theorem Unwinds.prepend {w : Text} (h : rule.Unwinds depth (before ++ w) s rest)
    (hw : ∀ t v, t ++ v = s ++ rest → rule.Inside (before ++ w) t v →
      rule.Inside before (w ++ t) v) :
    rule.Unwinds depth before (w ++ s) rest := by
  cases h with
  | last hinside hclose =>
    rw [← List.append_assoc]
    rw [List.append_assoc] at hclose
    exact .last (hw _ _ (List.append_assoc ..).symm hinside) hclose
  | @more depth _ s t _ hinside hclose hnext =>
    rw [← List.append_assoc]
    rw [List.append_assoc] at hclose
    rw [List.append_assoc, ← List.append_assoc w] at hnext
    exact .more (hw _ _ (by simp only [List.append_assoc]) hinside) hclose hnext

theorem unwinds_of_reads (hnested : rule.nested = true)
    (h : Reads (decideBlock rule) cut depth before s rest b) :
    rule.Unwinds depth before s rest := by
  -- By the way of the scan; what it moves over is put in front of what is read behind it.
  induction h with
  | stop hd _ => exact absurd hd decideBlock_ne_stop
  | @last depth before s rest b hd _ =>
    by_cases hstop : rule.StopsAt before (s ++ rest)
    · cases depth with
      | zero =>
        rw [decideBlock_zero_of_stopsAt hstop] at hd
        obtain rfl := eq_of_startsWith hstop.2 (Decision.last.inj hd).1
        exact .last (s := []) .nil (by rw [List.append_nil]; exact hstop.1)
      | succ depth =>
        rw [decideBlock_succ_of_stopsAt hstop] at hd
        cases hd
    · by_cases hstart : rule.StartsAt before (s ++ rest)
      · rw [decideBlock_of_startsAt hstop hnested hstart] at hd
        cases hd
      · rw [decideBlock_of_not hstop fun _ => hstart] at hd
        cases hd
  | @more depth depth' before u s rest b hd _ _ ih =>
    by_cases hstop : rule.StopsAt before (u ++ (s ++ rest))
    · cases depth with
      | zero =>
        rw [decideBlock_zero_of_stopsAt hstop] at hd
        cases hd
      | succ depth =>
        rw [decideBlock_succ_of_stopsAt hstop] at hd
        obtain ⟨hlen, rfl⟩ := Decision.more.inj hd
        obtain rfl := eq_of_startsWith hstop.2 hlen
        exact .more (s := []) .nil (by rw [List.append_nil]; exact hstop.1) ih
    · by_cases hstart : rule.StartsAt before (u ++ (s ++ rest))
      · rw [decideBlock_of_startsAt hstop hnested hstart] at hd
        obtain ⟨hlen, rfl⟩ := Decision.more.inj hd
        obtain rfl := eq_of_startsWith hstart.2 hlen
        -- The first end that is read belongs to this start.
        cases ih with
        | @more _ _ t v _ hinside hclose hnext =>
          have hnext' : rule.Unwinds depth
              (before ++ (rule.start ++ (t ++ rule.stop))) v rest := by
            rwa [List.append_assoc] at hnext
          have hunwinds := hnext'.prepend fun x y hxy hin => ?_
          · simpa only [List.append_assoc] using hunwinds
          · rw [List.append_assoc, List.append_assoc]
            rw [List.append_assoc, List.append_assoc, ← hxy] at hstop
            rw [← hxy] at hinside
            rw [List.append_assoc] at hclose
            exact .block hstop hstart.1 hinside hclose hin
      · rw [decideBlock_of_not hstop fun _ => hstart] at hd
        obtain ⟨hlen, rfl⟩ := Decision.more.inj hd
        obtain ⟨c, rfl⟩ := List.length_eq_one_iff.1 hlen.symm
        refine ih.prepend fun x y hxy hin => ?_
        rw [← hxy] at hstop hstart
        exact .rune hstop hstart hin

/-- What may be inside of a comment is read without an end to any start that was open. -/
theorem Inside.reads (hnested : rule.nested = true) {t rest' : Text}
    (h : rule.Inside before s rest') (hrest : rest' = t ++ rest)
    (hreads : Reads (decideBlock rule) cut depth (before ++ s) t rest b) :
    Reads (decideBlock rule) cut depth before (s ++ t) rest b := by
  induction h generalizing depth t rest with
  | nil => rwa [List.append_nil] at hreads
  | @rune before s rest' c hstop hstart _ ih =>
    subst hrest
    rw [← List.append_assoc] at hstop hstart
    refine .more (u := [c]) (decideBlock_of_not hstop (fun _ => hstart) depth)
      (List.cons_ne_nil _ _) (ih rfl ?_)
    rwa [List.append_assoc]
  | @block before s t' rest' hstop hopen _ hclose _ ih₁ ih₂ =>
    subst hrest
    have hstart := startsAt_append_start hopen (s ++ (rule.stop ++ (t' ++ (t ++ rest))))
    have hend := stopsAt_append_stop hclose (t' ++ (t ++ rest))
    have hbehind : Reads (decideBlock rule) cut depth
        (before ++ (rule.start ++ (s ++ rule.stop))) (t' ++ t) rest b := by
      refine ih₂ rfl ?_
      simpa only [List.append_assoc] using hreads
    have hinner : Reads (decideBlock rule) cut (depth + 1) (before ++ rule.start)
        (s ++ (rule.stop ++ (t' ++ t))) rest b := by
      have hpop := decideBlock_succ_of_stopsAt hend depth
      rw [← List.append_assoc before, ← List.append_assoc t'] at hpop
      refine ih₁ (by simp only [List.append_assoc]) (.more hpop rule.stop_ne_nil ?_)
      simpa only [List.append_assoc] using hbehind
    have houter : Reads (decideBlock rule) cut depth before
        (rule.start ++ (s ++ (rule.stop ++ (t' ++ t)))) rest b := by
      refine .more ?_ rule.start_ne_nil hinner
      simp only [List.append_assoc]
      exact decideBlock_of_startsAt hstop hnested hstart depth
    simpa only [List.append_assoc] using houter

/-- A scan reads a nested comment by the grammar. -/
theorem reads_nested_iff (hnested : rule.nested = true) :
    Reads (decideBlock rule) cut 0 before s rest () ↔
      ∃ t, s = t ++ rule.stop ∧ rule.Inside before t (rule.stop ++ rest) ∧
        rule.openAfter (before ++ t) = true := by
  constructor
  · intro h
    cases unwinds_of_reads hnested h with
    | last hinside hclose => exact ⟨_, rfl, hinside, hclose⟩
  · rintro ⟨t, rfl, hinside, hclose⟩
    refine hinside.reads hnested rfl (.last ?_ rule.stop_ne_nil)
    exact decideBlock_zero_of_stopsAt (stopsAt_append_stop hclose rest)

/-! ### Comments by a rule -/

/-- What a scan reads behind the start is a comment by the rule, together with the start. -/
theorem spans_append_iff (cut : Bool) (hopen : rule.openAfter before = true) :
    rule.Spans before (rule.start ++ s) rest ↔
      Reads (decideBlock rule) cut 0 (before ++ rule.start) s rest () := by
  unfold Spans
  cases hnested : rule.nested with
  | true =>
    rw [if_pos rfl, reads_nested_iff hnested]
    simp only [IsNest, List.append_cancel_left_eq, hopen, true_and, List.append_assoc]
  | false =>
    rw [if_neg Bool.false_ne_true, reads_flat_iff hnested]
    simp only [IsFlat, List.append_cancel_left_eq, List.append_assoc]

theorem Spans.exists_append (h : rule.Spans before s rest) : ∃ t, s = rule.start ++ t := by
  unfold Spans at h
  split at h
  · obtain ⟨t, rfl, -⟩ := h
    exact ⟨_, rfl⟩
  · obtain ⟨t, rfl, -⟩ := h
    exact ⟨_, rfl⟩

/-- No place has two comments by one rule. -/
theorem Spans.unique {s' rest' : Text} (hopen : rule.openAfter before = true)
    (h : rule.Spans before s rest) (h' : rule.Spans before s' rest')
    (heq : s ++ rest = s' ++ rest') : s = s' ∧ rest = rest' := by
  obtain ⟨t, rfl⟩ := h.exists_append
  obtain ⟨t', rfl⟩ := h'.exists_append
  rw [spans_append_iff false hopen] at h h'
  rw [List.append_assoc, List.append_assoc, List.append_cancel_left_eq] at heq
  obtain ⟨rfl, rfl, -⟩ := h.unique h' heq
  exact ⟨rfl, rfl⟩

/-- A flat comment has its end wherever the stop counts at all. -/
theorem exists_spans_iff (hflat : rule.nested = false) :
    (∃ s rest, after = s ++ rest ∧ rule.Spans before s rest) ↔
      ∃ u v, after = rule.start ++ (u ++ v) ∧ rule.StopsAt (before ++ (rule.start ++ u)) v := by
  simp only [Spans, hflat, Bool.false_eq_true, if_false]
  constructor
  · rintro ⟨s, rest, rfl, t, rfl, hfirst⟩
    exact ⟨t, rule.stop ++ rest, by simp only [List.append_assoc], hfirst.holds⟩
  · rintro ⟨u, v, rfl, hstop⟩
    obtain ⟨t, v', htext, hfirst⟩ :=
      exists_first (P := fun u v => rule.StopsAt (before ++ (rule.start ++ u)) v) hstop
    obtain ⟨rest, rfl⟩ := List.isPrefixOf_iff_prefix.1 hfirst.holds.2
    refine ⟨rule.start ++ (t ++ rule.stop), rest, ?_, t, rfl, hfirst⟩
    rw [htext]
    simp only [List.append_assoc]

end BlockRule

/-! ### Scans -/

namespace Scanner

variable {σ : Source} {rules : Rules} {rule : BlockRule} {h : Head} {before after s rest : Text}

/-- Where a block comment wins at a head of a decodable text, the next comment is the one by its
rule, and the scan goes on behind it. -/
theorem next_of_spans (hserves : σ.Serves rules) (hable : σ.able)
    (hwin : rules.winnerAt before (s ++ rest) = some (.block rule))
    (hspans : rule.Spans before s rest) (hat : h.At σ before (s ++ rest)) :
    ∃ h', (ofHead rules h).next =
        (.ok (some ⟨s, (1 + before.count '\n' : Nat), .block (some rule)⟩), ofHead rules h') ∧
      h'.At σ (before ++ s) rest := by
  obtain ⟨t, rfl⟩ := hspans.exists_append
  rw [BlockRule.spans_append_iff σ.cut (BlockRule.openAfter_of_winnerAt hwin)] at hspans
  rw [List.append_assoc] at hwin hat
  obtain ⟨h', hstep, hat'⟩ :=
    (Head.At.step_closed (o := .block rule) hserves hwin (.block hspans) hat).exists_ok hable
  exact ⟨h', next_of_step_some hstep, hat'⟩

/-- If there is no comment by its rule, there is none any more. -/
theorem next_of_not_spans (hserves : σ.Serves rules) (hable : σ.able) (hfault : σ.fault = none)
    (hwin : rules.winnerAt before after = some (.block rule))
    (hno : ∀ s rest, after = s ++ rest → ¬ rule.Spans before s rest) (hat : h.At σ before after) :
    ∃ last, (ofHead rules h).next = (.ok none, last) ∧ last.finished = true ∧
      last.error = none := by
  obtain ⟨t, rfl⟩ := List.isPrefixOf_iff_prefix.1 (Rules.startsWith_of_winnerAt hwin)
  refine Head.At.next_open (o := .block rule) hserves hable hfault hwin (fun s rest form hs h => ?_)
    hat
  cases h with
  | block hreads =>
    refine hno (rule.start ++ s) rest ?_ ?_
    · rw [hs, List.append_assoc]
      rfl
    · exact (BlockRule.spans_append_iff σ.cut (BlockRule.openAfter_of_winnerAt hwin)).2 hreads

/-- **Where block comments end**: at a head of a decodable text where one wins, the next comment is
what spans by its rule, which is one stretch at most, and the scan goes on behind it; if nothing
spans, there is no comment any more, and no error. -/
theorem next_block {charset : Charset} {octets : Octets} {text charsetName : Text} {maxPeek : Int}
    (htext : charset.Decodes octets text) (chunkSize : Int)
    (hname : Charset.ofName charsetName = .ok charset) (hfit : rules.Fits maxPeek.toNat) :
    ∃ r, Reader.ofOctets octets charsetName maxPeek chunkSize = .ok r ∧
      ∀ {comments h h₁ rule}, GetsTo rules { reader := r } comments h →
        opening rules h = .ok (some (.block rule)) h₁ →
        ∃ before after, text = before ++ after ∧ h.At (.ofReader r none True) before after ∧
          rules.winnerAt before after = some (.block rule) ∧
          (ofReader rules r).drain =
            (comments ++ (ofHead rules h).drain.1, (ofHead rules h).drain.2) ∧
          (∀ s rest, after = s ++ rest →
            ((∃ h', (ofHead rules h).next =
                (.ok (some ⟨s, (1 + before.count '\n' : Nat), .block (some rule)⟩),
                  ofHead rules h') ∧
                h'.At (.ofReader r none True) (before ++ s) rest) ↔
              rule.Spans before s rest)) ∧
          (∀ s rest s' rest', after = s ++ rest → after = s' ++ rest' →
            rule.Spans before s rest → rule.Spans before s' rest' → s = s') ∧
          (rule.nested = false → ((∃ s rest, after = s ++ rest ∧ rule.Spans before s rest) ↔
            ∃ u v, after = rule.start ++ (u ++ v) ∧
              rule.StopsAt (before ++ (rule.start ++ u)) v)) ∧
          ((∀ s rest, after = s ++ rest → ¬ rule.Spans before s rest) →
            ∃ last, (ofReader rules r).drain = (comments, .ok last) ∧ last.finished = true ∧
              last.error = none) := by
  obtain ⟨r, hr, hserves, hplace⟩ := exists_opening htext chunkSize hname hfit
  refine ⟨r, hr, fun {comments h h₁ rule} hgets hopening => ?_⟩
  obtain ⟨before, after, rfl, hat, hwin⟩ := hplace hgets hopening
  generalize (Opening.block rule).start ++ after = after at hat hwin ⊢
  have hopen := BlockRule.openAfter_of_winnerAt hwin
  have hdrain : (ofReader rules r).drain =
      (comments ++ (ofHead rules h).drain.1, (ofHead rules h).drain.2) := drain_of_getsTo hgets
  refine ⟨before, after, rfl, hat, hwin, hdrain, ?_, ?_, BlockRule.exists_spans_iff, fun hno => ?_⟩
  · rintro s rest rfl
    refine ⟨?_, fun hspans => next_of_spans hserves trivial hwin hspans hat⟩
    -- A comment is delivered, so that some stretch spans, and that is its text.
    rintro ⟨h', hnext, -⟩
    by_cases hspans : ∃ s' rest', s ++ rest = s' ++ rest' ∧ rule.Spans before s' rest'
    · obtain ⟨s', rest', htext', hspans⟩ := hspans
      rw [htext'] at hwin hat
      obtain ⟨_, hnext', -⟩ := next_of_spans hserves trivial hwin hspans hat
      rw [hnext'] at hnext
      cases hnext
      rw [List.append_cancel_left_eq] at htext'
      rwa [htext']
    · obtain ⟨last, hnext', -⟩ := next_of_not_spans hserves trivial rfl hwin
        (fun s' rest' hs' hsp => hspans ⟨s', rest', hs', hsp⟩) hat
      rw [hnext'] at hnext
      cases hnext
  · rintro s rest s' rest' rfl hs' hspans hspans'
    exact (hspans.unique hopen hspans' hs').1
  · obtain ⟨last, hnext, hlast⟩ := next_of_not_spans hserves trivial rfl hwin hno hat
    exact ⟨last, by rw [hdrain, drain_of_none hnext, List.append_nil], hlast⟩

/-- A nested comment in another one. -/
theorem next_block_nest :
    (Charset.plain .utf8).Decodes [0x2F, 0x2A, 0x2F, 0x2A, 0x2A, 0x2F, 0x2A, 0x2F, 0x62]
        "/*/**/*/b".toList ∧
      Charset.ofName "utf-8".toList = .ok (.plain .utf8) ∧
      Language.slashNestedStyle.Fits (1024 : Int).toNat ∧
      ∃ r h₁ h', Reader.ofOctets [0x2F, 0x2A, 0x2F, 0x2A, 0x2A, 0x2F, 0x2A, 0x2F, 0x62]
          "utf-8".toList 1024 1 = .ok r ∧
        GetsTo Language.slashNestedStyle { reader := r } [] { reader := r } ∧
        opening Language.slashNestedStyle { reader := r } =
          .ok (some (.block Language.slashNestedBlock)) h₁ ∧
        (ofHead Language.slashNestedStyle { reader := r }).next =
          (.ok (some ⟨"/*/**/*/".toList, 1, .block (some Language.slashNestedBlock)⟩),
            ofHead Language.slashNestedStyle h') := by
  have htext : (Charset.plain .utf8).Decodes
      [0x2F, 0x2A, 0x2F, 0x2A, 0x2A, 0x2F, 0x2A, 0x2F, 0x62] "/*/**/*/b".toList :=
    Charset.decodes_plain (decodes_of_ascii (by simp))
  have hname : Charset.ofName "utf-8".toList = .ok (.plain .utf8) := rfl
  have hfit : Language.slashNestedStyle.Fits (1024 : Int).toNat := by decide
  refine ⟨htext, hname, hfit, ?_⟩
  obtain ⟨r, hr, hblock⟩ := next_block htext 1 hname hfit
  obtain ⟨h₁, hopening⟩ := exists_opening_start htext (by decide) hname hfit
    (o := .block Language.slashNestedBlock) rfl hr
  obtain ⟨before, after, htext, hat, -, -, hiff, -⟩ := hblock .here hopening
  obtain ⟨-, -, -, hpos⟩ := Reader.fields_ofOctets hr
  obtain rfl := hat.before_eq_nil hpos
  have hreads : Reads (decideBlock Language.slashNestedBlock) false 0 ['/', '*']
      ['/', '*', '*', '/', '*', '/'] ['b'] () :=
    .more (u := ['/', '*']) rfl (by decide)
      (.more (u := ['*', '/']) rfl (by decide) (.last rfl (by decide)))
  obtain ⟨h', hnext, -⟩ := (hiff "/*/**/*/".toList ['b'] htext.symm).2
    ((BlockRule.spans_append_iff false rfl).2 hreads)
  exact ⟨r, h₁, h', hr, .here, hopening, hnext⟩

end Scanner

end SourceNotes
