/-
Markup for styled output.

Styled text holds tags in brackets, such as `[green]` and `[/green]`. A backslash
keeps a tag from being one, and backslashes before a tag are written twice.

* **`escape`** — writes a text so that no part of it is a tag;
* **`render`** — the plain text of a markup.
-/
import SourceNotes.Text.Pieces

namespace SourceNotes.Markup

/-- Whether a tag may begin with this character. -/
def isTagStart (c : Char) : Bool :=
  ('a' ≤ c && c ≤ 'z') || c == '#' || c == '/' || c == '@'

/-- The tag that a text begins with, brackets included, and what follows it. There
is no opening bracket inside a tag. -/
def tag? : Text → Option (Text × Text)
  | '[' :: c :: s =>
    if isTagStart c then
      match s.dropWhile fun d => d ≠ '[' ∧ d ≠ ']' with
      | ']' :: rest =>
        some ('[' :: c :: (s.takeWhile fun d => d ≠ '[' ∧ d ≠ ']') ++ [']'], rest)
      | _ => none
    else none
  | _ => none

theorem tag?_length {s tag rest : Text} (h : tag? s = some (tag, rest)) :
    rest.length < s.length := by
  unfold tag? at h
  split at h
  · next c s =>
    split at h
    · split at h
      · next r heq =>
        cases h
        have h₁ := (List.dropWhile_suffix (fun d => d ≠ '[' ∧ d ≠ ']') (l := s)).length_le
        rw [heq] at h₁
        simp only [List.length_cons] at h₁ ⊢
        omega
      · cases h
    · cases h
  · cases h

/-- The number of backslashes at the start of a text. -/
def slashes (s : Text) : Nat := (s.takeWhile (· = '\\')).length

/-- The text after those. -/
def afterSlashes (s : Text) : Text := s.dropWhile (· = '\\')

theorem afterSlashes_length_le (s : Text) : (afterSlashes s).length ≤ s.length :=
  (List.dropWhile_suffix _).length_le

theorem rest_length_of_tag {s tag rest : Text} (h : tag? (afterSlashes s) = some (tag, rest)) :
    rest.length < s.length :=
  Nat.lt_of_lt_of_le (tag?_length h) (afterSlashes_length_le s)

theorem after_length {c d : Char} {s after : Text} (h : afterSlashes (c :: s) = d :: after) :
    after.length < s.length + 1 := by
  have := afterSlashes_length_le (c :: s)
  rw [h] at this
  simp only [List.length_cons] at this
  omega

/-- Writes tags so that they are none. -/
def escapeTags (s : Text) : Text :=
  match h : tag? (afterSlashes s) with
  | some (tag, rest) =>
    have : rest.length < s.length := rest_length_of_tag h
    List.replicate (2 * slashes s + 1) '\\' ++ tag ++ escapeTags rest
  | none =>
    match s with
    | [] => []
    | c :: rest =>
      if c = '\\' then
        match ha : afterSlashes (c :: rest) with
        | [] => c :: rest
        | d :: after =>
          have : after.length < rest.length + 1 := after_length ha
          List.replicate (slashes (c :: rest)) '\\' ++ d :: escapeTags after
      else c :: escapeTags rest
termination_by s.length

/-- Writes a text so that no part of it is a tag. A single backslash at the end is
doubled, so that it does not touch a tag that follows. -/
def escape (s : Text) : Text :=
  let escaped := escapeTags s
  if Text.endsWith ['\\'] escaped && !Text.endsWith ['\\', '\\'] escaped then escaped ++ ['\\']
  else escaped

/-- The plain text of a markup: tags are left out. Of the backslashes before a tag
every second one stays, and one too many makes the tag plain text; a backslash
before any other opening bracket is left out. -/
def render (s : Text) : Text :=
  match h : tag? (afterSlashes s) with
  | some (tag, rest) =>
    have : rest.length < s.length := rest_length_of_tag h
    List.replicate (slashes s / 2) '\\' ++ (if slashes s % 2 = 1 then tag else []) ++ render rest
  | none =>
    match s with
    | [] => []
    | c :: rest =>
      if c = '\\' then
        match ha : afterSlashes (c :: rest) with
        | [] => c :: rest
        | d :: after =>
          have : after.length < rest.length + 1 := after_length ha
          let kept := if d = '[' then slashes (c :: rest) - 1 else slashes (c :: rest)
          List.replicate kept '\\' ++ d :: render after
      else c :: render rest
termination_by s.length

end SourceNotes.Markup
