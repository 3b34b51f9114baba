/-
Block scalars.

A block scalar is a header and the lines below it that are indented far enough.
The header may fix the indentation and say what becomes of the line breaks at the
end; without a fixed indentation the first line decides. In a literal scalar the
line breaks stand for themselves; in a folded one a single break between two lines
that begin with no blank stands for a space.

* **`Block.read`** — the block scalar below a header.
-/
import SourceNotes.Yaml.Character
import SourceNotes.Yaml.Fault

namespace SourceNotes.Yaml.Block

/-- What becomes of the line breaks at the end. -/
inductive Chomp where
  /-- All go. -/
  | strip
  /-- The first stays. -/
  | clip
  /-- All stay. -/
  | keep
  deriving DecidableEq, Repr

/-- What a header says. -/
structure Header where
  chomp : Chomp := .clip
  /-- The indentation, counted from that of the parent. -/
  indentation : Option Nat := none

/-- The chomping that a sign asks for. -/
def chomp? : Char → Option Chomp
  | '+' => some .keep
  | '-' => some .strip
  | _ => none

/-- The indentation that a digit asks for. -/
def indentation? (c : Char) : Option Nat :=
  if c.isDigit then some (c.toNat - '0'.toNat) else none

/-- The signs of a header, in either order, and what follows them. -/
def signs (s : Text) : Header × Text :=
  let chompHere := s.head?.bind chomp?
  let s₁ := if chompHere.isSome then s.tail else s
  let indentation := s₁.head?.bind indentation?
  let s₂ := if indentation.isSome then s₁.tail else s₁
  let chompThere := if chompHere.isNone && indentation.isSome then s₂.head?.bind chomp? else none
  let s₃ := if chompThere.isSome then s₂.tail else s₂
  ({ chomp := (chompHere.or chompThere).getD .clip, indentation }, s₃)

/-- The header at the start of a text, with the comment after it, and what follows
its line. -/
def header (s : Text) : Except Fault (Header × Text) :=
  let (header, rest) := signs s
  if header.indentation = some 0 ∨ !endsOr (fun c => c == ' ' || isBreak c) rest then
    .error .invalid
  else
    let rest := rest.dropWhile (· = ' ')
    let rest := if rest.head? = some '#' then rest.dropWhile fun c => !isBreak c else rest
    if endsOr isBreak rest then .ok (header, rest.tail) else .error .invalid

/-- Line breaks before, between and after lines. -/
structure Breaks where
  text : Text
  /-- The column of what follows them. -/
  column : Nat
  rest : Text

/-- The line breaks at the start of a text, with at most `indent` spaces before each
of them and after the last; `column` spaces have been met already. -/
def breaks (indent column : Nat) : Text → Breaks
  | [] => { text := [], column, rest := [] }
  | c :: s =>
    if c = ' ' ∧ column < indent then breaks indent (column + 1) s
    else if isBreak c then
      let more := breaks indent 0 s
      { more with text := breakChar c :: more.text }
    else { text := [], column, rest := c :: s }

theorem breaks_length (indent column : Nat) (s : Text) :
    (breaks indent column s).rest.length ≤ s.length := by
  induction s generalizing column with
  | nil => simp [breaks]
  | cons c s ih =>
    rw [breaks]
    split
    · exact Nat.le_succ_of_le (ih _)
    · split
      · exact Nat.le_succ_of_le (ih 0)
      · simp

/-- The line breaks and spaces at the start of a text, and the widest column that
the spaces reach. -/
def firstBreaks (column widest : Nat) : Text → Breaks × Nat
  | [] => ({ text := [], column, rest := [] }, widest)
  | c :: s =>
    if c = ' ' then firstBreaks (column + 1) (max widest (column + 1)) s
    else if isBreak c then
      let (more, widest) := firstBreaks 0 widest s
      ({ more with text := breakChar c :: more.text }, widest)
    else ({ text := [], column, rest := c :: s }, widest)

/-- What the break `b` and the empty lines `more` stand for between a line that
begins with `first` and a text with the next line. -/
def between (folded : Bool) (first : Option Char) (b : Char) (more next : Text) : Text :=
  if folded ∧ b = '\n' ∧ !first.any isInline ∧ !next.head?.any isInline then
    if more = [] then [' '] else more
  else b :: more

/-- What is left of the line breaks at the end, of which `b` is the first. -/
def ending (chomp : Chomp) (b more : Text) : Text :=
  match chomp with
  | .strip => []
  | .clip => b
  | .keep => b ++ more

theorem breaks_length_of_line {indent : Nat} {c : Char} {s t : Text}
    (h : (s.dropWhile fun c => !isBreak c) = c :: t) :
    (breaks indent 0 t).rest.length < s.length := by
  have h₁ := (List.dropWhile_suffix (fun c => !isBreak c) (l := s)).length_le
  have h₂ := breaks_length indent 0 t
  rw [h, List.length_cons] at h₁
  omega

/-- The lines from one that begins here, at the column `indent`, and what follows
them. -/
def lines (folded : Bool) (chomp : Chomp) (indent : Nat) (s : Text) : Text × Text :=
  let content := s.takeWhile fun c => !isBreak c
  match h : s.dropWhile fun c => !isBreak c with
  | [] => (content, [])
  | c :: t =>
    let b := breakChar c
    let next := breaks indent 0 t
    if next.column = indent ∧ next.rest ≠ [] then
      have : next.rest.length < s.length := breaks_length_of_line h
      let (text, rest) := lines folded chomp indent next.rest
      (content ++ between folded s.head? b next.text next.rest ++ text, rest)
    else (content ++ ending chomp [b] next.text, next.rest)
termination_by s.length

/-- The block scalar whose mark is followed by `s`, and what follows it. Its lines
stand at the column `least` or beyond. -/
def read (folded : Bool) (least : Nat) (s : Text) : Except Fault (Text × Text) := do
  let (header, s) ← header s
  let (start, indent) := match header.indentation with
    | some n =>
      let indent := least + n - 1
      (breaks indent 0 s, indent)
    | none =>
      let (start, widest) := firstBreaks 0 0 s
      (start, max least widest)
  if start.column = indent ∧ start.rest ≠ [] then
    let (text, rest) := lines folded header.chomp indent start.rest
    return (start.text ++ text, rest)
  else return (ending header.chomp [] start.text, start.rest)

end SourceNotes.Yaml.Block
