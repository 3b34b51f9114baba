/-
The segmentation of a text.

A text falls into runes of code, string literals and comments, from left to right.
What a place in code begins with is settled by `Rules.winnerAt`; where a literal or a
comment ends is settled by one decision per place, taken over and over.

* **`Reads`** — a stretch that a decision, repeated, moves over; at most one stretch
  of a text is read (`Reads.unique`);
* **`Opening.Closes`** — how a literal or a comment goes on after its start;
* **`Segmentation`** — the segments of a text. There is exactly one segmentation
  (`existsUnique_segmentation`), and it is all of the text
  (`Segmentation.flatMap_text`).

Undecodable octets behind a text (`cut`) matter to a comment that would end with the
text: it is lost.
-/
import SourceNotes.Proofs.Comment.Winner

namespace SourceNotes

open Head Text

/-! ### Decisions -/

/-- A decision about a place, from what is before it and what is after it. -/
abbrev Decider (α β : Type) := α → Text → Text → Decision α β

/-- Whether a line ends in front of `after`. -/
def endsLine (after : Text) : Bool :=
  after.isEmpty || startsWith ['\n'] after || startsWith ['\r', '\n'] after

/-- The runes in front of `after` that are skipped together in a string. -/
def Escape.unitAt (e : Escape) (stop after : Text) : Text :=
  match e with
  | .none => []
  | .char c =>
    if startsWith (c :: stop) after then c :: stop
    -- An escaped escape character does not hide the end of the string.
    else if stop.head? = some c then []
    else if startsWith [c, c] after then [c, c] else []
  | .double => if startsWith (stop ++ stop) after then stop ++ stop else []

/-- In a line comment. -/
def decideLine : Decider Unit Unit := fun _ _ after =>
  if endsLine after then .stop () else .more 1 ()

/-- In a block comment with `depth` starts open inside it. -/
def decideBlock (rule : BlockRule) : Decider Nat Unit := fun depth before after =>
  if rule.openAfter before && startsWith rule.stop after then
    match depth with
    | 0 => .last rule.stop.length ()
    | depth + 1 => .more rule.stop.length depth
  else if rule.openAfter before && rule.nested && startsWith rule.start after then
    .more rule.start.length (depth + 1)
  else .more 1 depth

/-- In a string, with the answer `b` at its end. -/
def decideString {β : Type} (rule : StringRule) (b : β) : Decider Unit β := fun _ _ after =>
  if rule.escape.unitAt rule.stop after ≠ [] then
    .more (rule.escape.unitAt rule.stop after).length ()
  else if startsWith rule.stop after then .last rule.stop.length b
  else .more 1 ()

/-- After the start of a line comment and a string: a line end makes it a comment, the end
of the string a string. -/
def decideLineOrString (rule : StringRule) : Decider Unit Bool := fun _ before after =>
  if endsLine after then .stop true else decideString rule false () before after

/-- After `before`, the decisions move over the first argument and end in front of the
second. -/
inductive Reads {α β : Type} (d : Decider α β) (cut : Bool) : α → Text → Text → Text → β → Prop
  | stop {a : α} {before rest : Text} {b : β} (h : d a before rest = .stop b)
      (hcut : cut = true → rest ≠ []) : Reads d cut a before [] rest b
  | last {a : α} {before s rest : Text} {b : β} (h : d a before (s ++ rest) = .last s.length b)
      (hs : s ≠ []) : Reads d cut a before s rest b
  | more {a a' : α} {before u s rest : Text} {b : β}
      (h : d a before (u ++ (s ++ rest)) = .more u.length a') (hu : u ≠ [])
      (hnext : Reads d cut a' (before ++ u) s rest b) : Reads d cut a before (u ++ s) rest b

/-- No more than one stretch of a text is read. -/
theorem Reads.unique {α β : Type} {d : Decider α β} {cut : Bool} {a : α} {before s rest : Text}
    {b : β} (h : Reads d cut a before s rest b) :
    ∀ {s' rest' : Text} {b' : β}, Reads d cut a before s' rest' b' → s ++ rest = s' ++ rest' →
      s = s' ∧ rest = rest' ∧ b = b' := by
  -- Both stretches begin at one place, where there is one decision.
  induction h with
  | stop h _ =>
    intro s' rest' b' h' heq
    rw [List.nil_append] at heq
    subst heq
    cases h' with
    | stop h' _ => rw [List.nil_append, h'] at h; cases h; exact ⟨rfl, rfl, rfl⟩
    | last h' _ => rw [h'] at h; cases h
    | more h' _ _ => rw [List.append_assoc, h'] at h; cases h
  | last h _ =>
    intro s' rest' b' h' heq
    rw [heq] at h
    cases h' with
    | stop h' _ => rw [List.nil_append, h'] at h; cases h
    | last h' _ =>
      rw [h'] at h
      obtain ⟨hlen, rfl⟩ := Decision.last.inj h
      obtain ⟨rfl, rfl⟩ := List.append_inj heq hlen.symm
      exact ⟨rfl, rfl, rfl⟩
    | more h' _ _ => rw [List.append_assoc, h'] at h; cases h
  | more h _ _ ih =>
    intro s' rest' b' h' heq
    rw [← List.append_assoc, heq] at h
    cases h' with
    | stop h' _ => rw [List.nil_append, h'] at h; cases h
    | last h' _ => rw [h'] at h; cases h
    | more h' _ hnext' =>
      rw [List.append_assoc, h'] at h
      obtain ⟨hlen, rfl⟩ := Decision.more.inj h
      rw [List.append_assoc, List.append_assoc] at heq
      obtain ⟨rfl, htail⟩ := List.append_inj heq hlen.symm
      obtain ⟨rfl, rfl, rfl⟩ := ih hnext' htail
      exact ⟨rfl, rfl, rfl⟩

/-! ### Segments -/

/-- What an opening goes on with behind its start: the stretch up to its end, and the form of
the comment that it is, or none if it is a literal. -/
inductive Opening.Closes (cut : Bool) (before : Text) :
    Opening → Text → Text → Option Comment.Form → Prop
  | line {rule : LineRule} {s rest : Text} (h : Reads decideLine cut () before s rest ()) :
      Closes cut before (.line rule) s rest (some (.line (some rule)))
  | block {rule : BlockRule} {s rest : Text}
      (h : Reads (decideBlock rule) cut 0 before s rest ()) :
      Closes cut before (.block rule) s rest (some (.block (some rule)))
  | string {rule : StringRule} {s rest : Text}
      (h : Reads (decideString rule ()) cut () before s rest ()) :
      Closes cut before (.string rule) s rest none
  | lineNotString {rule : LineRule} {literal : StringRule} {s rest : Text}
      (h : Reads (decideLineOrString literal) cut () before s rest true) :
      Closes cut before (.lineOrString rule literal) s rest (some (.line (some rule)))
  | stringNotLine {rule : LineRule} {literal : StringRule} {s rest : Text}
      (h : Reads (decideLineOrString literal) cut () before s rest false) :
      Closes cut before (.lineOrString rule literal) s rest none

theorem Opening.Closes.unique {cut : Bool} {before s rest s' rest' : Text} {o : Opening}
    {form form' : Option Comment.Form} (h : o.Closes cut before s rest form)
    (h' : o.Closes cut before s' rest' form') (heq : s ++ rest = s' ++ rest') :
    s = s' ∧ rest = rest' ∧ form = form' := by
  cases h with
  | line h =>
    cases h' with
    | line h' => obtain ⟨hs, hrest, -⟩ := h.unique h' heq; exact ⟨hs, hrest, rfl⟩
  | block h =>
    cases h' with
    | block h' => obtain ⟨hs, hrest, -⟩ := h.unique h' heq; exact ⟨hs, hrest, rfl⟩
  | string h =>
    cases h' with
    | string h' => obtain ⟨hs, hrest, -⟩ := h.unique h' heq; exact ⟨hs, hrest, rfl⟩
  | lineNotString h =>
    cases h' with
    | lineNotString h' => obtain ⟨hs, hrest, -⟩ := h.unique h' heq; exact ⟨hs, hrest, rfl⟩
    | stringNotLine h' => obtain ⟨-, -, hb⟩ := h.unique h' heq; cases hb
  | stringNotLine h =>
    cases h' with
    | lineNotString h' => obtain ⟨-, -, hb⟩ := h.unique h' heq; cases hb
    | stringNotLine h' => obtain ⟨hs, hrest, -⟩ := h.unique h' heq; exact ⟨hs, hrest, rfl⟩

/-- A piece of a source text. -/
inductive Segment where
  /-- A rune of code. -/
  | code (c : Char)
  /-- A string literal with its delimiters. -/
  | literal (s : Text)
  | comment (c : Comment)
  /-- A string or a comment that does not come to its end, and so all the rest of the text. -/
  | lost (s : Text)
  deriving DecidableEq, Repr

namespace Segment

/-- The part of the text that a segment is. -/
def text : Segment → Text
  | code c => [c]
  | literal s => s
  | comment c => c.text
  | lost s => s

/-- The comment that a segment is. -/
def comment? : Segment → Option Comment
  | comment c => some c
  | _ => none

end Segment

/-- The segment that an opening behind `before` is, if it goes on with `s`. -/
def Opening.segment (before : Text) (o : Opening) (s : Text) : Option Comment.Form → Segment
  | none => .literal (o.start ++ s)
  | some form => .comment ⟨o.start ++ s, (1 + before.count '\n' : Nat), form⟩

theorem Opening.text_segment (before : Text) (o : Opening) (s : Text)
    (form : Option Comment.Form) : (o.segment before s form).text = o.start ++ s := by
  cases form <;> rfl

/-- After `before`, a text falls into segments: a rune of code where nothing begins, else
what begins up to its end; if there is no end, all the rest is lost. -/
inductive Segmentation (rules : Rules) (cut : Bool) : Text → Text → List Segment → Prop
  | done {before : Text} : Segmentation rules cut before [] []
  | code {before rest : Text} {c : Char} {segments : List Segment}
      (hwin : rules.winnerAt before (c :: rest) = none)
      (hnext : Segmentation rules cut (before ++ [c]) rest segments) :
      Segmentation rules cut before (c :: rest) (.code c :: segments)
  | closed {before s rest : Text} {o : Opening} {form : Option Comment.Form}
      {segments : List Segment} (hwin : rules.winnerAt before (o.start ++ (s ++ rest)) = some o)
      (hclose : o.Closes cut (before ++ o.start) s rest form)
      (hnext : Segmentation rules cut (before ++ (o.start ++ s)) rest segments) :
      Segmentation rules cut before (o.start ++ (s ++ rest)) (o.segment before s form :: segments)
  | lost {before s : Text} {o : Opening}
      (hwin : rules.winnerAt before (o.start ++ s) = some o)
      (hopen : ∀ s' rest form, s = s' ++ rest → ¬ o.Closes cut (before ++ o.start) s' rest form) :
      Segmentation rules cut before (o.start ++ s) [.lost (o.start ++ s)]

/-- The comments among some segments. -/
def commentsOf (segments : List Segment) : List Comment := segments.filterMap Segment.comment?

variable {rules : Rules} {cut : Bool} {before text : Text} {segments segments' : List Segment}

/-- A comment among some segments is one of them. -/
theorem exists_append_of_mem_commentsOf {c : Comment} (h : c ∈ commentsOf segments) :
    ∃ l m, segments = l ++ .comment c :: m := by
  obtain ⟨segment, hmem, hsegment⟩ := List.mem_filterMap.1 h
  cases segment with
  | comment d =>
    cases hsegment
    exact List.append_of_mem hmem
  | code d => cases hsegment
  | literal s => cases hsegment
  | lost s => cases hsegment

/-- The segments put together are the text. -/
theorem Segmentation.flatMap_text (h : Segmentation rules cut before text segments) :
    segments.flatMap Segment.text = text := by
  induction h with
  | done => rfl
  | code _ _ ih => rw [List.flatMap_cons, ih]; rfl
  | closed _ _ _ ih => rw [List.flatMap_cons, ih, Opening.text_segment, List.append_assoc]
  | lost _ _ => simp [Segment.text]

/-- Every text has a segmentation. -/
theorem exists_segmentation (rules : Rules) (cut : Bool) (before text : Text) :
    ∃ segments, Segmentation rules cut before text segments := by
  -- By the length of the text: what is left behind a segment is shorter.
  induction hn : text.length using Nat.strongRecOn generalizing before text with
  | ind n ih =>
    subst hn
    cases hwin : rules.winnerAt before text with
    | none =>
      cases text with
      | nil => exact ⟨[], .done⟩
      | cons c rest =>
        obtain ⟨segments, h⟩ := ih rest.length (Nat.lt_succ_self _) (before ++ [c]) rest rfl
        exact ⟨_, .code hwin h⟩
    | some o =>
      obtain ⟨s, rfl⟩ := List.isPrefixOf_iff_prefix.1 (Rules.startsWith_of_winnerAt hwin)
      by_cases hclose :
          ∃ s' rest form, s = s' ++ rest ∧ o.Closes cut (before ++ o.start) s' rest form
      · obtain ⟨s', rest, form, rfl, hclose⟩ := hclose
        have hstart := List.length_pos_iff.2 (Opening.start_ne_nil o)
        obtain ⟨segments, h⟩ := ih rest.length (by simp only [List.length_append]; omega)
          (before ++ (o.start ++ s')) rest rfl
        exact ⟨_, .closed hwin hclose h⟩
      · exact ⟨_, .lost hwin fun s' rest form hs h => hclose ⟨s', rest, form, hs, h⟩⟩

/-- Where nothing begins, a segmentation starts with a rune of code. -/
theorem Segmentation.inv_code {c : Char} {rest : Text}
    (h : Segmentation rules cut before (c :: rest) segments)
    (hwin : rules.winnerAt before (c :: rest) = none) :
    ∃ more, segments = .code c :: more ∧ Segmentation rules cut (before ++ [c]) rest more := by
  generalize htext : c :: rest = text at h hwin
  cases h with
  | done => cases htext
  | code _ hnext => cases htext; exact ⟨_, rfl, hnext⟩
  | closed hwin' _ _ => rw [hwin'] at hwin; cases hwin
  | lost hwin' _ => rw [hwin'] at hwin; cases hwin

/-- Where something begins, a segmentation starts with it, up to its end, or is lost. -/
theorem Segmentation.inv_opening {o : Opening} {s : Text}
    (h : Segmentation rules cut before (o.start ++ s) segments)
    (hwin : rules.winnerAt before (o.start ++ s) = some o) :
    (∃ s' rest form more, s = s' ++ rest ∧ o.Closes cut (before ++ o.start) s' rest form ∧
      segments = o.segment before s' form :: more ∧
      Segmentation rules cut (before ++ (o.start ++ s')) rest more) ∨
    (∀ s' rest form, s = s' ++ rest → ¬ o.Closes cut (before ++ o.start) s' rest form) ∧
      segments = [.lost (o.start ++ s)] := by
  generalize htext : o.start ++ s = text at h hwin
  cases h with
  | done => rw [Rules.winnerAt_nil] at hwin; cases hwin
  | code hwin' _ => rw [hwin'] at hwin; cases hwin
  | closed hwin' hclose hnext =>
    rw [hwin'] at hwin
    cases hwin
    obtain rfl := List.append_cancel_left htext
    exact .inl ⟨_, _, _, _, rfl, hclose, rfl, hnext⟩
  | lost hwin' hopen =>
    rw [hwin'] at hwin
    cases hwin
    obtain rfl := List.append_cancel_left htext
    exact .inr ⟨hopen, rfl⟩

/-- Where something begins and comes to its end, a segmentation starts with it and goes on behind
it. -/
theorem Segmentation.inv_closed {o : Opening} {s rest : Text} {form : Option Comment.Form}
    (h : Segmentation rules cut before (o.start ++ (s ++ rest)) segments)
    (hwin : rules.winnerAt before (o.start ++ (s ++ rest)) = some o)
    (hclose : o.Closes cut (before ++ o.start) s rest form) :
    ∃ more, segments = o.segment before s form :: more ∧
      Segmentation rules cut (before ++ (o.start ++ s)) rest more := by
  rcases h.inv_opening hwin with ⟨s', rest', form', more, heq, hclose', hsegs, hmore⟩ | ⟨hopen, -⟩
  · obtain ⟨rfl, rfl, rfl⟩ := hclose.unique hclose' heq
    exact ⟨more, hsegs, hmore⟩
  · exact absurd hclose (hopen _ _ _ rfl)

/-- No text has two segmentations. -/
theorem Segmentation.unique (h : Segmentation rules cut before text segments)
    (h' : Segmentation rules cut before text segments') : segments = segments' := by
  induction h generalizing segments' with
  | done =>
    generalize htext : [] = text at h'
    cases h' with
    | done => rfl
    | code _ _ => cases htext
    | closed hwin _ _ => rw [← htext, Rules.winnerAt_nil] at hwin; cases hwin
    | lost hwin _ => rw [← htext, Rules.winnerAt_nil] at hwin; cases hwin
  | code hwin _ ih =>
    obtain ⟨more, rfl, hmore⟩ := h'.inv_code hwin
    rw [ih hmore]
  | closed hwin hclose _ ih =>
    obtain ⟨more, rfl, hmore⟩ := h'.inv_closed hwin hclose
    rw [ih hmore]
  | lost hwin hopen =>
    rcases h'.inv_opening hwin with ⟨s', rest', form', more, heq, hclose', -, -⟩ | ⟨-, rfl⟩
    · exact absurd hclose' (hopen _ _ _ heq)
    · rfl

/-- A text falls into segments in exactly one way. -/
theorem existsUnique_segmentation (rules : Rules) (cut : Bool) (text : Text) :
    ∃ segments, Segmentation rules cut [] text segments ∧
      ∀ segments', Segmentation rules cut [] text segments' → segments' = segments := by
  obtain ⟨segments, h⟩ := exists_segmentation rules cut [] text
  exact ⟨segments, h, fun _ h' => h'.unique h⟩

end SourceNotes
