/-
Quoted scalars.

Between single quotes a quote is written twice and all else stands for itself.
Between double quotes a backslash begins an escape; before a line break it takes
the break away. In both, a gap that goes over a line break is folded: the blanks
around the break go, a single break stands for a space, and of several breaks the
first stands for nothing.

* **`Quoted.read`** — the inside of a quoted scalar at the start of a text.
-/
import SourceNotes.Yaml.Character
import SourceNotes.Yaml.Fault

namespace SourceNotes.Yaml.Quoted

/-- The two kinds of quotes. -/
inductive Style where
  | single
  | double
  deriving DecidableEq, Repr

/-- The mark of a kind of quotes. -/
def Style.mark : Style → Char
  | .single => '\''
  | .double => '"'

/-- The line breaks at the start of a text and the blanks before, between and after
them. A document mark may not begin a line of them. -/
def breaks (s : Text) : Except Fault (Text × { rest : Text // rest.length ≤ s.length }) :=
  if isDocumentMark s then .error (if mayBeDocumentMark s then .unfinished .invalid else .invalid)
  else
    have h := (List.dropWhile_suffix isInline (l := s)).length_le
    match hr : s.dropWhile isInline with
    | [] => .ok ([], ⟨[], Nat.zero_le _⟩)
    | c :: t =>
      if isBreak c then
        have : t.length < s.length := by
          rw [hr] at h
          exact h
        match breaks t with
        | .error e => .error e
        | .ok (more, ⟨rest, hrest⟩) =>
          .ok (breakChar c :: more, ⟨rest, Nat.le_trans hrest (Nat.le_of_lt this)⟩)
      else .ok ([], ⟨c :: t, hr ▸ h⟩)
termination_by s.length

/-- What a gap that begins with the character `c` stands for, and what follows it. -/
def gap (c : Char) (s : Text) :
    Except Fault (Text × { rest : Text // rest.length ≤ s.length }) :=
  have h := (List.dropWhile_suffix isInline (l := s)).length_le
  let folded (b : Char) (t : Text) (ht : t.length ≤ s.length) :
      Except Fault (Text × { rest : Text // rest.length ≤ s.length }) :=
    match breaks t with
    | .error e => .error e
    | .ok (more, ⟨rest, hrest⟩) =>
      let text := if breakChar b ≠ '\n' then breakChar b :: more
        else if more = [] then [' '] else more
      .ok (text, ⟨rest, Nat.le_trans hrest ht⟩)
  if isBreak c then folded c s (Nat.le_refl _)
  else
    match hr : s.dropWhile isInline with
    | [] => .error (.unfinished .invalid)
    | b :: t =>
      if isBreak b then
        folded b t (by
          rw [hr] at h
          exact Nat.le_of_succ_le h)
      else .ok (c :: s.takeWhile isInline, ⟨b :: t, hr ▸ h⟩)

/-- What an escape of one character stands for. -/
def escaped? : Char → Option Char
  | '0' => some '\x00'
  | 'a' => some '\x07'
  | 'b' => some '\x08'
  | 't' | '\t' => some '\t'
  | 'n' => some '\n'
  | 'v' => some '\x0b'
  | 'f' => some '\x0c'
  | 'r' => some '\r'
  | 'e' => some '\x1b'
  | ' ' => some ' '
  | '"' => some '"'
  | '\\' => some '\\'
  | '/' => some '/'
  | 'N' => some '\x85'
  | '_' => some '\xa0'
  | 'L' => some '\u2028'
  | 'P' => some '\u2029'
  | _ => none

/-- The number of hexadecimal digits in an escape. -/
def escapeWidth? : Char → Option Nat
  | 'x' => some 2
  | 'u' => some 4
  | 'U' => some 8
  | _ => none

/-- The codes that the escape with the character `c` and then `s` stands for, and what
follows it. -/
def escape (c : Char) (s : Text) :
    Except Fault (Codes × { rest : Text // rest.length ≤ s.length }) :=
  match escaped? c with
  | some d => .ok ([d.toNat], ⟨s, Nat.le_refl _⟩)
  | none =>
    match escapeWidth? c with
    | some width =>
      match h : hexNumber? 0 width s with
      | none => .error (if lacksHexDigits width s then .unfinished .invalid else .invalid)
      | some (code, rest) =>
        have hrest : rest.length ≤ s.length := Nat.le_of_lt_succ (length_lt_of_hexNumber? h)
        if 0x10FFFF < code then .error (.character code) else .ok ([code], ⟨rest, hrest⟩)
    | none =>
      if isBreak c then (breaks s).map fun (text, rest) => (Codes.ofText text, rest)
      else .error .invalid

/-- The codes up to the closing quote, and what follows that. -/
def read (style : Style) (s : Text) : Except Fault (Codes × Text) :=
  match s with
  | [] => .error (.unfinished .invalid)
  | c :: t =>
    if c = style.mark then
      match style, t with
      | .single, '\'' :: u =>
        (read style u).map fun (more, rest) => ('\''.toNat :: more, rest)
      | _, _ => .ok ([], t)
    else if isGap c then
      match gap c t with
      | .error e => .error e
      | .ok (text, ⟨u, _hu⟩) =>
        (read style u).map fun (more, rest) => (Codes.ofText text ++ more, rest)
    else if style = .double ∧ c = '\\' then
      match t with
      | [] => .error (.unfinished .invalid)
      | d :: u =>
        match escape d u with
        | .error e => .error e
        | .ok (codes, ⟨v, _hv⟩) =>
          (read style v).map fun (more, rest) => (codes ++ more, rest)
    else (read style t).map fun (more, rest) => (c.toNat :: more, rest)
termination_by s.length
decreasing_by all_goals (simp only [List.length_cons]; omega)

end SourceNotes.Yaml.Quoted
