/-
Plain scalars.

A plain scalar is written without quotes, as words with gaps between them. It ends
before a comment, before a colon that a gap follows and, in a flow collection,
before the marks of one. Where it goes over several lines, a single line break
stands for a space, and of several breaks the first stands for nothing.

* **`Plain.read`** — the scalar at the start of a text.
-/
import SourceNotes.Yaml.Character

namespace SourceNotes.Yaml.Plain

/-- Whether a word ends before the character `c` that `rest` follows. -/
def stops (inFlow : Bool) (c : Char) (rest : Text) : Bool :=
  isGap c
    || (c == ':' && endsOr (fun d => isGap d || (inFlow && isOneOf ",[]\x7b\x7d" d)) rest)
    || (inFlow && isOneOf ",?[]\x7b\x7d" c)

/-- The word at the start of a text, and what follows it. -/
def word (inFlow : Bool) : Text → Text × Text
  | [] => ([], [])
  | c :: s =>
    if stops inFlow c s then ([], c :: s)
    else
      let (w, rest) := word inFlow s
      (c :: w, rest)

theorem word_append (inFlow : Bool) (s : Text) : (word inFlow s).1 ++ (word inFlow s).2 = s := by
  induction s with
  | nil => rfl
  | cons c s ih =>
    rw [word]
    split
    · rfl
    · simpa using ih

/-- What lies between two words. -/
structure Gap where
  /-- What it stands for; empty if the scalar ends here. -/
  text : Text
  rest : Text
  /-- Whether there are line breaks in it. -/
  broken : Bool
  /-- The column of what follows, if there are. -/
  column : Nat := 0

/-- Further line breaks of a gap, and spaces; nothing where a document mark follows
a break. -/
def breaks (column : Nat) : Text → Option (Text × Nat) × Text
  | [] => (some ([], column), [])
  | c :: s =>
    if c = ' ' then breaks (column + 1) s
    else if isBreak c then
      if isDocumentMark s then (none, s)
      else
        let (found, rest) := breaks 0 s
        (found.map fun (text, column) => (breakChar c :: text, column), rest)
    else (some ([], column), c :: s)

theorem breaks_length (column : Nat) (s : Text) : (breaks column s).2.length ≤ s.length := by
  induction s generalizing column with
  | nil => simp [breaks]
  | cons c s ih =>
    rw [breaks]
    split
    · exact Nat.le_succ_of_le (ih _)
    · split
      · split
        · simp
        · exact Nat.le_succ_of_le (ih 0)
      · simp

/-- The gap at the start of a text. -/
def gap (s : Text) : Gap :=
  match s.dropWhile (· = ' ') with
  | [] => { text := s, rest := [], broken := false }
  | c :: rest =>
    if !isBreak c then
      { text := s.takeWhile (· = ' '), rest := c :: rest, broken := false }
    else if isDocumentMark rest then { text := [], rest, broken := true }
    else
      match breaks 0 rest with
      | (none, rest) => { text := [], rest, broken := true }
      | (some (more, column), rest) =>
        let text := if breakChar c ≠ '\n' then breakChar c :: more
          else if more = [] then [' '] else more
        { text, rest, broken := true, column }

theorem gap_length (s : Text) : (gap s).rest.length ≤ s.length := by
  have h := (List.dropWhile_suffix (· = ' ') (l := s)).length_le
  unfold gap
  split
  · simp
  · next c rest heq =>
    rw [heq] at h
    have hb := breaks_length 0 rest
    simp only [List.length_cons] at h
    split
    · simpa using h
    · split
      · simp only
        omega
      · split
        · next heq' =>
          rw [heq'] at hb
          simp only at hb ⊢
          omega
        · next heq' =>
          rw [heq'] at hb
          simp only at hb ⊢
          omega

theorem gap_length_of_word {inFlow : Bool} {c : Char} {s w t : Text}
    (h : word inFlow s = (c :: w, t)) : (gap t).rest.length < s.length := by
  have h₁ := congrArg List.length (word_append inFlow s)
  have h₂ := gap_length t
  rw [h] at h₁
  simp only [List.length_append, List.length_cons] at h₁
  omega

/-- The rest of a scalar after a gap that stands for `before` and is `broken` or
not: its text, what follows it, and whether a line break comes last. -/
def readOn (indent : Nat) (inFlow : Bool) (before : Text) (broken : Bool) (s : Text) :
    Text × Text × Bool :=
  match h : word inFlow s with
  | ([], _) => ([], s, broken)
  | (c :: w, t) =>
    if s.head? = some '#' then ([], s, broken)
    else
      let next := gap t
      if next.text = [] ∨ next.rest.head? = some '#' ∨
          (!inFlow ∧ next.broken ∧ next.column < indent) then
        (before ++ c :: w, next.rest, next.broken)
      else
        have : next.rest.length < s.length := gap_length_of_word h
        let (text, rest, broken) := readOn indent inFlow next.text next.broken next.rest
        (before ++ c :: w ++ text, rest, broken)
termination_by s.length

/-- The plain scalar at the start of a text, what follows it, and whether a line
break comes last. Lines that go on with it stand at the column `indent` or beyond,
except in a flow collection. -/
def read (indent : Nat) (inFlow : Bool) (s : Text) : Text × Text × Bool :=
  readOn indent inFlow [] false s

end SourceNotes.Yaml.Plain
