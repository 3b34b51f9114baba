/-
Calls for comments, one after another.

A call for a comment answers with one, answers that there is none, or passes an error on. What is
shown here is that a scan whose reader can take its chunks and finds the mark that it needs passes
no error on: whatever ends it, be it the end of the text, octets at fault or a look too far ahead,
it answers that there is none, and goes on to answer so.

* **`Scanner.answer_of_drain`** — the answers of single calls, when all comments are known;
* **`Scanner.drain_over`** — a scan comes to its end, whatever its rules are;
* **`Scanner.drain_of_delivers`** — the comments that come before the end, by what the reader has
  to deliver.
-/
import SourceNotes.Proofs.Comment.Scan
import SourceNotes.Proofs.Reader.Charsets

namespace SourceNotes

open Head Text Charset

namespace Scanner

/-- The scanner after some calls for comments. -/
def after (s : Scanner) : Nat → Scanner
  | 0 => s
  | n + 1 => s.next.2.after n

/-- The scan is over, and if the text ends at a fault then with an error that ends scans. -/
structure Over (fault : Option Fault) (s : Scanner) : Prop where
  finished : s.finished = true
  error : fault = none ∧ s.error = none ∨ ∃ e, s.error = some e ∧ e.endsScan = true

variable {σ : Source} {s s' last : Scanner} {before text : Text} {segments : List Segment}
  {comments : List Comment}

theorem next_of_finished (h : s.finished = true) : s.next = (.ok none, s) := by
  rw [next, if_pos h]

theorem finished_of_next (h : s.next = (.ok none, s')) : s'.finished = true := by
  unfold next at h
  split at h
  · next hfinished =>
    cases h
    exact hfinished
  · split at h
    · cases h
    · cases h
      rfl
    · split at h <;> cases h
      rfl

/-- A scan that can be drained answers call after call with a comment, then always with none. -/
theorem answer_of_drain (h : s.drain = (comments, .ok last)) (n : Nat) :
    (s.after n).next.1 = .ok comments[n]? ∧ (comments.length < n → s.after n = last) := by
  induction n generalizing s comments with
  | zero =>
    refine ⟨?_, fun hn => by omega⟩
    show s.next.1 = _
    rcases hnext : s.next with ⟨_ | _ | c, s'⟩
    · rw [drain_of_error hnext] at h
      cases h
    · rw [drain_of_none hnext] at h
      cases h
      rfl
    · rw [drain_of_comment hnext] at h
      obtain ⟨rfl, -⟩ := Prod.mk.inj h
      rfl
  | succ n ih =>
    show (s.next.2.after n).next.1 = _ ∧ (_ → s.next.2.after n = last)
    rcases hnext : s.next with ⟨_ | _ | c, s'⟩
    · rw [drain_of_error hnext] at h
      cases h
    · -- From here on there is nothing, and the scanner does not change.
      rw [drain_of_none hnext] at h
      cases h
      obtain ⟨hanswer, hafter⟩ := ih (drain_of_none (next_of_finished (finished_of_next hnext)))
      refine ⟨hanswer.trans (by simp), fun _ => ?_⟩
      rcases n with _ | n
      · rfl
      · exact hafter (Nat.succ_pos n)
    · rw [drain_of_comment hnext] at h
      obtain ⟨rfl, hlast⟩ := Prod.mk.inj h
      obtain ⟨hanswer, hafter⟩ := ih (s := s') (Prod.ext rfl hlast)
      refine ⟨hanswer.trans (by simp), fun hn => hafter ?_⟩
      simpa using hn

/-- An error that does not end scans is passed on, and the scan stays open. -/
theorem next_of_passed (hs : s.finished = false) {e : ReadError} {h' : Head}
    (hnext : nextComment s.rules s.head = .error (.failed e) h') (he : e.endsScan = false) :
    s.next = (.error e, { s with head := h' }) := by
  rw [next, hs, hnext]
  simp only [he, Bool.false_eq_true, if_false]

/-- A scan that stops for good answers so. -/
theorem next_of_halts (hs : s.finished = false) (herr : s.error = none) {e : Halt} {h' : Head}
    (hnext : nextComment s.rules s.head = .error e h') (he : σ.Halts e) :
    ∃ s', s.next = (.ok none, s') ∧ s'.Over σ.fault := by
  rw [next, hs, hnext]
  cases e with
  | endOfText => exact ⟨_, rfl, rfl, .inl ⟨he, herr⟩⟩
  | failed e =>
    have hends : e.endsScan = true := he
    simp only [hends, if_true, Bool.false_eq_true, if_false]
    exact ⟨_, rfl, rfl, .inr ⟨e, rfl, hends⟩⟩

/-- A scan whose chunks can be taken comes to an end that it answers for itself. -/
theorem drain_over (hserves : σ.Serves s.rules)
    (hseg : Segmentation s.rules σ.cut before text segments) (hgo : s.GoesOn σ before text)
    (hchunk : σ.chunkSize ≤ Reader.maxChunk) :
    ∃ last, s.drain.2 = .ok last ∧ last.Over σ.fault := by
  -- By the number of comments to come, as for the comments themselves.
  induction hn : (commentsOf segments).length using Nat.strongRecOn
    generalizing s before text segments with
  | ind n ih =>
    subst hn
    rcases nextComment_spec hserves hseg hgo.at_head with
      ⟨c, more, before', text', h', hnext, hat, hmore, hsegs⟩ | ⟨⟨e, h', hnext, he⟩, -⟩
    · have hfewer : (commentsOf more).length < (commentsOf segments).length := by
        rw [hsegs]
        exact Nat.lt_succ_self _
      rw [drain_of_comment (next_of_comment hgo.not_finished hnext)]
      exact ih _ hfewer (s := { s with head := h' }) hserves hmore
        ⟨hgo.not_finished, hgo.no_error, hat⟩ rfl
    · obtain ⟨s', hstop, hover⟩ :=
        next_of_halts hgo.not_finished hgo.no_error hnext (he.halts hchunk)
      exact ⟨s', by rw [drain_of_none hstop], hover⟩

end Scanner

/-- What a scan by the reader `r` goes through. -/
def Source.ofReader (r : Reader) (fault : Option Fault) (able : Prop) : Source :=
  { charsetName := r.charsetName, maxPeek := r.maxPeek, chunkSize := r.chunkSize, fault, able }

namespace Scanner

variable {rules : Rules} {r : Reader} {o : Outlook} {segments : List Segment}

theorem goesOn_of_delivers (hdel : r.Delivers o) (hpos : r.position = {}) (able : Prop) :
    (ofReader rules r).GoesOn (.ofReader r o.fault able) [] o.runes :=
  ⟨rfl, rfl, ⟨.inl hdel, rfl, rfl, rfl, hpos, rfl⟩⟩

/-- By rules that look too far ahead a scan may end early, by others it delivers all comments
before the fault; in both cases it comes to its end. -/
theorem drain_of_delivers (hdel : r.Delivers o) (hpos : r.position = {})
    (hsize : r.chunkSize ≤ Reader.maxChunk)
    (hseg : Segmentation rules o.fault.isSome [] o.runes segments) :
    ∃ comments last, (ofReader rules r).drain = (comments, .ok last) ∧
      comments <+: commentsOf segments ∧ last.Over o.fault ∧
      (rules.Fits r.maxPeek → comments = commentsOf segments ∧
        last.StoppedAt (.ofReader r o.fault True)) := by
  have hblind : (Source.ofReader r o.fault False).Serves rules := fun _ _ => False.elim
  have hgo : (ofReader rules r).GoesOn (.ofReader r o.fault False) [] o.runes :=
    goesOn_of_delivers hdel hpos False
  obtain ⟨last, hlast, hover⟩ := drain_over hblind hseg hgo hsize
  refine ⟨(ofReader rules r).drain.1, last, Prod.ext rfl hlast,
    (drain_of_segmentation hblind hseg hgo).1, hover, fun hfit => ?_⟩
  have hserves : (Source.ofReader r o.fault True).Serves rules := fun n hn _ => hfit n hn
  obtain ⟨last', hdrain, hstopped⟩ :=
    (drain_of_segmentation hserves hseg (goesOn_of_delivers hdel hpos True)).2 trivial
  rw [hdrain] at hlast
  cases hlast
  exact ⟨by rw [hdrain], hstopped⟩

end Scanner

end SourceNotes
