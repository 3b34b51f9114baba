/-
Scanning a text for its comments.

A scanner goes forward through the text of a reader, one comment at a time. It
stops for good at the end of the text and at octets that are not text.

* **`Scanner.next`** — the next comment;
* **`Scanner.drain`** — all the comments that are left.
-/
import SourceNotes.Comment.Segment

namespace SourceNotes

open Head

/-- The comment that an opening leads to, if it is one; the head stands behind the
start delimiter. -/
def Opening.body (o : Opening) (line : Nat) : Scan (Option Comment) :=
  match o with
  | .line rule => fun h =>
    match run lineStep peeks_lineStep () [] h with
    | .ok (s, ()) h => .ok (some ⟨rule.start ++ s, line, .line (some rule)⟩) h
    | .error e h => .error e h
  | .block rule => fun h =>
    match run (blockStep rule) (peeks_blockStep rule) 0 [] h with
    | .ok (s, ()) h => .ok (some ⟨rule.start ++ s, line, .block (some rule)⟩) h
    | .error e h => .error e h
  | .string rule => fun h =>
    match run (stringStep rule) (peeks_stringStep rule) () [] h with
    | .ok _ h => .ok none h
    | .error e h => .error e h
  | .lineOrString rule literal => fun h =>
    match run (lineOrStringStep literal) (peeks_lineOrStringStep literal) () [] h with
    | .ok (s, true) h => .ok (some ⟨rule.start ++ s, line, .line (some rule)⟩) h
    | .ok (_, false) h => .ok none h
    | .error e h => .error e h

theorem Opening.remaining_body_le (o : Opening) (line : Nat) (h : Head) :
    (stateOf (o.body line h)).remaining ≤ h.remaining := by
  cases o with
  | line rule =>
    have := remaining_run_le lineStep peeks_lineStep () [] h
    unfold Opening.body; dsimp only; split <;> rename_i heq <;> rwa [heq] at this
  | block rule =>
    have := remaining_run_le (blockStep rule) (peeks_blockStep rule) 0 [] h
    unfold Opening.body; dsimp only; split <;> rename_i heq <;> rwa [heq] at this
  | string rule =>
    have := remaining_run_le (stringStep rule) (peeks_stringStep rule) () [] h
    unfold Opening.body; dsimp only; split <;> rename_i heq <;> rwa [heq] at this
  | lineOrString rule literal =>
    have := remaining_run_le (lineOrStringStep literal) (peeks_lineOrStringStep literal) () [] h
    unfold Opening.body; dsimp only; split <;> rename_i heq <;> rwa [heq] at this

/-- In code a decision never ends in place. -/
theorem codeStep_ne_stop (rules : Rules) (u : Unit) (h : Head) (b : Opening × Nat) (h' : Head) :
    codeStep rules u h ≠ .ok (.stop b) h' := by
  intro hstop
  change EStateM.bind (opening rules) _ h = _ at hstop
  unfold EStateM.bind at hstop
  split at hstop
  · dsimp only at hstop
    split at hstop <;> cases hstop
  · cases hstop

/-- Goes on from a place in code to the end of the next comment. -/
def nextComment (rules : Rules) (h : Head) : EStateM.Result Halt Head Comment :=
  match hc : run (codeStep rules) (peeks_codeStep rules) () [] h with
  | .error e h => .error e h
  | .ok (_, o, line) h₁ =>
    match hb : o.body line h₁ with
    | .error e h => .error e h
    | .ok (some comment) h => .ok comment h
    | .ok none h₂ =>
      have : h₂.remaining < h.remaining := by
        have h₁₂ := o.remaining_body_le line h₁
        rw [hb] at h₁₂
        exact Nat.lt_of_le_of_lt h₁₂ (remaining_run_lt (codeStep_ne_stop rules) hc)
      nextComment rules h₂
termination_by h.remaining

/-- Behind the start of an opening: the next comment is what it leads to, or comes after it. -/
theorem nextComment_of_opening {rules : Rules} {h h₁ : Head} {taken : Text} {o : Opening}
    {line : Nat}
    (hc : run (codeStep rules) (peeks_codeStep rules) () [] h = .ok (taken, o, line) h₁) :
    nextComment rules h =
      match o.body line h₁ with
      | .error e h => .error e h
      | .ok (some comment) h => .ok comment h
      | .ok none h => nextComment rules h := by
  rw [nextComment]
  split
  all_goals rename_i heq; rw [hc] at heq; cases heq
  split
  · next hb => rw [hb]
  · next hb => rw [hb]
  · next h₂ hb =>
    show nextComment rules h₂ = _
    rw [hb]

theorem nextComment_of_error {rules : Rules} {h h₁ : Head} {e : Halt}
    (hc : run (codeStep rules) (peeks_codeStep rules) () [] h = .error e h₁) :
    nextComment rules h = .error e h₁ := by
  rw [nextComment]
  split
  all_goals rename_i heq; rw [hc] at heq; cases heq
  rfl

/-- Each comment brings the head nearer to the end. -/
theorem remaining_nextComment_lt {rules : Rules} {h h' : Head} {comment : Comment}
    (hn : nextComment rules h = .ok comment h') : h'.remaining < h.remaining := by
  fun_induction nextComment rules h with
  | case1 => cases hn
  | case2 => cases hn
  | case3 h taken o line h₁ hc c h₂ hb =>
    cases hn
    have h₁₂ := o.remaining_body_le line h₁
    rw [hb] at h₁₂
    exact Nat.lt_of_le_of_lt h₁₂ (remaining_run_lt (codeStep_ne_stop rules) hc)
  | case4 h taken o line h₁ hc h₂ hb hlt ih => exact Nat.lt_trans (ih hn) hlt

/-- A scan between two comments. -/
structure Scanner where
  rules : Rules
  head : Head
  /-- The scan has come to its end. -/
  finished : Bool := false
  /-- The error that ended it. -/
  error : Option ReadError := none

namespace Scanner

/-- A scanner at the place of a reader. -/
def ofReader (rules : Rules) (reader : Reader) : Scanner := { rules, head := { reader } }

/-- The next comment, or none if the scan is at its end. An error that does not
end scans is passed on, and the scan may be tried again. -/
def next (s : Scanner) : Except ReadError (Option Comment) × Scanner :=
  if s.finished then (.ok none, s)
  else
    match nextComment s.rules s.head with
    | .ok comment head => (.ok (some comment), { s with head })
    | .error .endOfText head => (.ok none, { s with head, finished := true })
    | .error (.failed e) head =>
      if e.endsScan then (.ok none, { s with head, finished := true, error := some e })
      else (.error e, { s with head })

theorem remaining_next_lt {s s' : Scanner} {comment : Comment}
    (h : s.next = (.ok (some comment), s')) : s'.head.remaining < s.head.remaining := by
  unfold next at h
  split at h
  · cases h
  · split at h
    · next hn => cases h; exact remaining_nextComment_lt hn
    · cases h
    · split at h <;> cases h

/-- All the comments that are left, and the scanner after them or the error that
is passed on. -/
def drain (s : Scanner) : List Comment × Except ReadError Scanner :=
  match h : s.next with
  | (.ok (some comment), s') =>
    have := remaining_next_lt h
    let (comments, last) := s'.drain
    (comment :: comments, last)
  | (.ok none, s') => ([], .ok s')
  | (.error e, _) => ([], .error e)
termination_by s.head.remaining

theorem drain_of_comment {s s' : Scanner} {comment : Comment}
    (h : s.next = (.ok (some comment), s')) :
    s.drain = (comment :: s'.drain.1, s'.drain.2) := by
  rw [drain]
  split
  all_goals rename_i heq; rw [h] at heq; cases heq
  rfl

theorem drain_of_none {s s' : Scanner} (h : s.next = (.ok none, s')) : s.drain = ([], .ok s') := by
  rw [drain]
  split
  all_goals rename_i heq; rw [h] at heq; cases heq
  rfl

theorem drain_of_error {s s' : Scanner} {e : ReadError} (h : s.next = (.error e, s')) :
    s.drain = ([], .error e) := by
  rw [drain]
  split
  all_goals rename_i heq; rw [h] at heq; cases heq
  rfl

end Scanner

end SourceNotes
