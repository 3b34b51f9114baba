/-
The lines on which comments stand.

* **`Segmentation.comment_spec`** — a comment among the segments begins with the start of
  its rule, on the line that the newlines before it say;
* **`Segmentation.pairwise_line`** — comments stand in order, none before the last line
  of the one in front of it;
* **`Opening.Closes.newline_not_mem`** — a line comment stays on its line, if no
  delimiter of the rules takes a newline in.
-/
import SourceNotes.Proofs.Comment.Decides

namespace SourceNotes

open Head Text

/-- The start of the rule that a form has. -/
def Comment.Form.start? : Comment.Form → Option Text
  | .line rule => rule.map (·.start)
  | .block rule => rule.map (·.start)

/-- The line that a comment ends on. -/
def Comment.lastLine (c : Comment) : Int := c.line + (c.text.count '\n' : Nat)

variable {rules : Rules} {cut : Bool} {before text s rest : Text} {o : Opening}
  {segments : List Segment}

/-- The form of a comment has the rule that it was opened by. -/
theorem Opening.Closes.start?_eq {form : Comment.Form}
    (h : o.Closes cut before s rest (some form)) : form.start? = some o.start := by
  cases h <;> rfl

/-- A comment among the segments: its line, the opening that it begins with, and that it goes on
from there to its end. -/
theorem Segmentation.comment_spec (h : Segmentation rules cut before text segments)
    {l m : List Segment} {c : Comment} (hsegs : segments = l ++ .comment c :: m) :
    c.line = (1 + (before ++ l.flatMap Segment.text).count '\n' : Nat) ∧
      ∃ (o : Opening) (s : Text), o.IsOf rules ∧ c.text = o.start ++ s ∧
        o.Closes cut (before ++ l.flatMap Segment.text ++ o.start) s (m.flatMap Segment.text)
          (some c.form) := by
  -- The segments in front of the comment are those that the segmentation comes by first.
  induction h generalizing l with
  | done => simp at hsegs
  | @code before rest d segments hwin hnext ih =>
    rcases l with _ | ⟨x, l⟩
    · cases hsegs
    · obtain ⟨rfl, htail⟩ := List.cons.inj hsegs
      have := ih htail
      rw [List.append_assoc] at this
      exact this
  | @closed before s rest o form segments hwin hclose hnext ih =>
    rcases l with _ | ⟨x, l⟩
    · obtain ⟨hhead, rfl⟩ := List.cons.inj hsegs
      rw [List.flatMap_nil, List.append_nil, hnext.flatMap_text]
      cases form with
      | none => cases hhead
      | some form =>
        cases hhead
        exact ⟨rfl, o, s, Opening.isOf_of_winnerAt hwin, rfl, hclose⟩
    · obtain ⟨rfl, htail⟩ := List.cons.inj hsegs
      have := ih htail
      rw [List.append_assoc] at this
      rw [List.flatMap_cons, Opening.text_segment]
      exact this
  | lost hwin hopen =>
    rcases l with _ | ⟨x, _ | ⟨y, l⟩⟩ <;> cases hsegs

/-- A comment that is still to come is on no line before the place. -/
theorem Segmentation.le_line (h : Segmentation rules cut before text segments) {c : Comment}
    (hc : c ∈ commentsOf segments) : (1 + before.count '\n' : Nat) ≤ c.line := by
  obtain ⟨l, m, hsegs⟩ := exists_append_of_mem_commentsOf hc
  obtain ⟨hline, -⟩ := h.comment_spec hsegs
  rw [hline, List.count_append]
  omega

/-- No comment begins before the last line of the one in front of it. -/
theorem Segmentation.pairwise_line (h : Segmentation rules cut before text segments) :
    (commentsOf segments).Pairwise fun c d => c.lastLine ≤ d.line := by
  induction h with
  | done => exact .nil
  | code _ _ ih => exact ih
  | @closed before s rest o form segments hwin hclose hnext ih =>
    cases form with
    | none => exact ih
    | some form =>
      -- All comments to come are behind the newlines of this one.
      refine List.pairwise_cons.2 ⟨fun d hd => ?_, ih⟩
      have hle := hnext.le_line hd
      rw [List.count_append] at hle
      show ((1 + before.count '\n' : Nat) : Int) + ((o.start ++ s).count '\n' : Nat) ≤ d.line
      omega
  | lost _ _ => exact .nil

/-! ### Line comments -/

/-- The delimiters that may occur in a line comment have no newline in them. -/
def Rules.KeepsLines (rules : Rules) : Prop :=
  (∀ r ∈ rules.lines, '\n' ∉ r.start) ∧
    ∀ r ∈ rules.strings, '\n' ∉ r.stop ∧ r.escape ≠ .char '\n'

instance (rules : Rules) : Decidable rules.KeepsLines :=
  inferInstanceAs (Decidable ((∀ r ∈ rules.lines, '\n' ∉ r.start) ∧
    ∀ r ∈ rules.strings, '\n' ∉ r.stop ∧ r.escape ≠ .char '\n'))

/-- The character by which an escape works. -/
def Escape.chars : Escape → Text
  | .char c => [c]
  | _ => []

/-- No delimiter and no escape character is or has a newline. -/
structure Rules.AvoidNewlines (rules : Rules) : Prop where
  lines : ∀ r ∈ rules.lines, '\n' ∉ r.start
  blocks : ∀ r ∈ rules.blocks, '\n' ∉ r.start ∧ '\n' ∉ r.stop
  strings : ∀ r ∈ rules.strings, '\n' ∉ r.start ∧ '\n' ∉ r.stop ∧ '\n' ∉ r.escape.chars

theorem Rules.AvoidNewlines.keepsLines (h : rules.AvoidNewlines) : rules.KeepsLines := by
  refine ⟨h.lines, fun r hr => ?_⟩
  obtain ⟨-, hstop, hescape⟩ := h.strings r hr
  refine ⟨hstop, fun he => hescape ?_⟩
  rw [he]
  exact List.mem_singleton_self _

/-- What is read holds no rune that no decision moves over. -/
theorem Reads.not_mem {α β : Type} {d : Decider α β} {a : α} {b : β} {c : Char}
    (h : Reads d cut a before s rest b)
    (hlast : ∀ a before u rest, d a before (u ++ rest) = .last u.length b → c ∉ u)
    (hmore : ∀ a before u rest a', d a before (u ++ rest) = .more u.length a' → c ∉ u) :
    c ∉ s := by
  induction h with
  | stop _ _ => exact List.not_mem_nil
  | last hd _ => exact hlast _ _ _ _ hd
  | more hd _ _ ih =>
    rw [List.mem_append, not_or]
    exact ⟨hmore _ _ _ _ _ hd, ih hlast⟩

/-- Where the line does not end, the next rune is no newline. -/
theorem newline_not_mem_of_endsLine {u : Text} (hu : u.length = 1)
    (hends : ¬ endsLine (u ++ rest) = true) : '\n' ∉ u := by
  obtain ⟨c, rfl⟩ := List.length_eq_one_iff.1 hu
  rw [List.mem_singleton]
  rintro rfl
  exact hends rfl

/-- A text that stands in front and is as long as what does is the same. -/
theorem eq_of_startsWith {p u : Text} (h : startsWith p (u ++ rest) = true)
    (hlen : p.length = u.length) : p = u := by
  obtain ⟨t, ht⟩ := List.isPrefixOf_iff_prefix.1 h
  exact (List.append_inj ht hlen).1

/-- What is skipped together in a string is made of its end and the escape. -/
theorem newline_not_mem_unitAt {e : Escape} {stop after : Text} (hstop : '\n' ∉ stop)
    (he : e ≠ .char '\n') : '\n' ∉ e.unitAt stop after := by
  cases e with
  | none => exact List.not_mem_nil
  | char c =>
    have hc : '\n' ≠ c := fun h => he (by rw [h])
    unfold Escape.unitAt
    dsimp only
    split
    · simp [hc, hstop]
    · split
      · exact List.not_mem_nil
      · split
        · simp [hc]
        · exact List.not_mem_nil
  | double =>
    unfold Escape.unitAt
    dsimp only
    split
    · simp [hstop]
    · exact List.not_mem_nil

/-- Nothing but a single rune has the length of one. -/
theorem eq_newline_or_not_mem {u : Text} (hu : u.length = 1) : u = ['\n'] ∨ '\n' ∉ u := by
  obtain ⟨c, rfl⟩ := List.length_eq_one_iff.1 hu
  by_cases hc : c = '\n'
  · exact .inl (by rw [hc])
  · exact .inr fun h => hc (List.mem_singleton.1 h).symm

/-- Inside a string a newline is moved over alone. -/
theorem newline_of_decideString_more {rule : StringRule} {β : Type} {b : β} {u : Text} {v : Unit}
    (hstop : '\n' ∉ rule.stop) (hescape : rule.escape ≠ .char '\n')
    (h : decideString rule b () before (u ++ rest) = .more u.length v) :
    u = ['\n'] ∨ '\n' ∉ u := by
  unfold decideString at h
  split at h
  · rw [← eq_of_startsWith (unitAt_spec ..).1 (Decision.more.inj h).1]
    exact .inr (newline_not_mem_unitAt hstop hescape)
  · split at h
    · cases h
    · exact eq_newline_or_not_mem (Decision.more.inj h).1.symm

/-- A line comment stays on its line. -/
theorem Opening.Closes.newline_not_mem (hkeeps : rules.KeepsLines) (hrules : o.IsOf rules)
    {rule : Option LineRule} (h : o.Closes cut before s rest (some (.line rule))) :
    '\n' ∉ o.start ++ s := by
  rw [List.mem_append, not_or]
  cases h with
  | line h =>
    refine ⟨hkeeps.1 _ hrules, h.not_mem ?_ ?_⟩
    · intro _ _ u rest hd
      unfold decideLine at hd
      split at hd <;> cases hd
    · intro _ _ u rest _ hd
      unfold decideLine at hd
      split at hd
      · cases hd
      · next hends => exact newline_not_mem_of_endsLine (Decision.more.inj hd).1.symm hends
  | @lineNotString _ literal _ _ h =>
    have hliteral := hkeeps.2 _ hrules.2
    refine ⟨hkeeps.1 _ hrules.1, h.not_mem ?_ ?_⟩
    · intro _ _ u rest hd
      unfold decideLineOrString decideString at hd
      split at hd
      · cases hd
      · split at hd
        · cases hd
        · split at hd
          · cases (Decision.last.inj hd).2
          · cases hd
    · intro _ _ u rest _ hd
      unfold decideLineOrString at hd
      split at hd
      · cases hd
      · -- A newline moved over alone would have ended the line.
        next hends =>
        rcases newline_of_decideString_more hliteral.1 hliteral.2 hd with rfl | hu
        · exact absurd rfl hends
        · exact hu

end SourceNotes
