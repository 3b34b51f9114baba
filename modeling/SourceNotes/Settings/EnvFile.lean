/-
Files of environment variables.

Each line of such a file gives a variable a value, as in `export NAME='value' # why`.
Values in quotes may hold escapes and go over several lines; `${NAME}` and
`${NAME:-default}` in a value stand for the value of another variable. A line that
is not of this form is passed over, and so is a byte-order mark at the front.

* **`EnvFile.bindings`** — the variables of a file, in order;
* **`EnvFile.values`** — their values with all references replaced.
-/
import SourceNotes.Text.Pieces

namespace SourceNotes.EnvFile

open Text

/-- A variable, and its value if the line gives it one. -/
abbrev Binding := Text × Option Text

/-- A blank that does not end a line. -/
def isInlineBlank (c : Char) : Bool := isBlank c && c != '\n' && c != '\r'

/-- Whether a line ends here. -/
def isLineEnd (c : Char) : Bool := c == '\n' || c == '\r'

/-- A text without the inline blanks at its start. -/
def skipInline (s : Text) : Text := s.dropWhile isInlineBlank

/-- A text after the end of its first line. -/
def nextLine (s : Text) : Text :=
  match s.dropWhile fun c => !isLineEnd c with
  | [] => []
  | _ :: rest => rest

/-- A text without the word that marks a variable for export. -/
def skipExport (s : Text) : Text :=
  match dropPrefix "export".toList s with
  | c :: rest => if startsWith "export".toList s && isInlineBlank c then skipInline rest else s
  | [] => s

/-- The name at the start of a line, if there is one; a comment has none. What
follows is the rest of the line, or all of it where no name can be read. -/
def name? (s : Text) : Except Text (Option Text × Text) :=
  match s with
  | '#' :: _ => .ok (none, s)
  | '\'' :: t =>
    match t.takeWhile (· ≠ '\''), t.dropWhile (· ≠ '\'') with
    | c :: key, _ :: rest => .ok (some (c :: key), rest)
    | _, _ => .error s
  | _ =>
    let stops (c : Char) : Bool := c == '=' || c == '#' || isBlank c
    match s.takeWhile fun c => !stops c with
    | [] => .error s
    | key => .ok (some key, s.dropWhile fun c => !stops c)

/-- The inside of quotes and what follows them. A backslash takes the character after
it along, so that a quote there does not close. -/
def quoted? (q : Char) : Text → Option (Text × Text)
  | [] => none
  | '\\' :: c :: s => (quoted? q s).map fun r => ('\\' :: c :: r.1, r.2)
  | c :: s => if c = q then some ([], s) else (quoted? q s).map fun r => (c :: r.1, r.2)

/-- What an escape in double quotes stands for. -/
def escaped? : Char → Option Char
  | '\\' => some '\\'
  | '\'' => some '\''
  | '"' => some '"'
  | 'a' => some '\x07'
  | 'b' => some '\x08'
  | 'f' => some '\x0c'
  | 'n' => some '\n'
  | 'r' => some '\r'
  | 't' => some '\t'
  | 'v' => some '\x0b'
  | _ => none

/-- The escapes in single quotes. -/
def escapedSingle? (c : Char) : Option Char := if c = '\\' ∨ c = '\'' then some c else none

/-- A text with its escapes replaced. -/
def unescape (escape? : Char → Option Char) : Text → Text
  | '\\' :: c :: s =>
    match escape? c with
    | some d => d :: unescape escape? s
    | none => '\\' :: unescape escape? (c :: s)
  | c :: s => c :: unescape escape? s
  | [] => []

/-- A line without the comment that blanks part from it. -/
def dropComment : Text → Text
  | [] => []
  | c :: s =>
    if isBlank c && (s.dropWhile isBlank).head? == some '#' then [] else c :: dropComment s

/-- The value after an equals sign and what follows it. -/
def value? (given : Text) : Except Text (Text × Text) :=
  let s := skipInline given
  match s with
  | [] => .ok ([], s)
  | c :: t =>
    if isLineEnd c then .ok ([], s)
    else if c = '\'' then
      match quoted? c t with
      | some (inside, rest) => .ok (unescape escapedSingle? inside, rest)
      | none => .error s
    else if c = '"' then
      match quoted? c t with
      | some (inside, rest) => .ok (unescape escaped? inside, rest)
      | none => .error s
    else
      .ok (trim (dropComment (given.takeWhile fun c => !isLineEnd c)),
        s.dropWhile fun c => !isLineEnd c)

/-- A text after the comment at its start. -/
def skipComment (s : Text) : Text :=
  match skipInline s with
  | '#' :: rest => rest.dropWhile fun c => !isLineEnd c
  | _ => s

/-- A text after the end of the line, which has to come next. -/
def endLine (s : Text) : Except Text Text :=
  match skipInline s with
  | [] => .ok []
  | c :: rest => if isLineEnd c then .ok rest else .error s

/-- Reads one line that starts with something other than a blank. What cannot be
read is told with the text from there on. -/
def line? (s : Text) : Except Text (Option Binding × Text) := do
  let (key, rest) ← name? (skipExport s)
  let rest := skipInline rest
  let (value, rest) ← match rest with
    | '=' :: rest => do
      let (value, rest) ← value? rest
      pure (some value, rest)
    | _ => pure (none, rest)
  let rest ← endLine (skipComment rest)
  return (key.map (·, value), rest)

/-- The variables of a text of at most so many lines, in order. -/
def bindingsWithin : Nat → Text → List Binding
  | 0, _ => []
  | lines + 1, s =>
    match trimStart s with
    | [] => []
    | start =>
      match line? start with
      | .ok (binding, rest) => binding.toList ++ bindingsWithin lines rest
      | .error rest => bindingsWithin lines (nextLine rest)

/-- The variables of a file, in order. Every line takes a character at least. -/
def bindings (s : Text) : List Binding :=
  let s := dropPrefix ['\uFEFF'] s
  bindingsWithin s.length s

/-- The reference at the start of a text: a name, what stands for its value if it has
none, and what follows the reference. -/
def reference? : Text → Option (Text × Text × Text)
  | '$' :: '\x7b' :: s =>
    let stops (c : Char) : Bool := c == '\x7d' || c == ':'
    let name := s.takeWhile fun c => !stops c
    match s.dropWhile fun c => !stops c with
    | '\x7d' :: rest => some (name, [], rest)
    | ':' :: '-' :: other =>
      match other.dropWhile (· ≠ '\x7d') with
      | _ :: rest => some (name, other.takeWhile (· ≠ '\x7d'), rest)
      | [] => none
    | _ => none
  | _ => none

theorem reference?_length {s name other rest : Text}
    (h : reference? s = some (name, other, rest)) : rest.length < s.length := by
  unfold reference? at h
  split at h
  · next s =>
    have h₁ := (List.dropWhile_suffix (fun c => !(c == '\x7d' || c == ':')) (l := s)).length_le
    dsimp only at h
    split at h
    · next r heq =>
      cases h
      rw [heq] at h₁
      simp only [List.length_cons] at h₁ ⊢
      omega
    · next other' heq =>
      have h₂ := (List.dropWhile_suffix (· ≠ '\x7d') (l := other')).length_le
      split at h
      · next c r heq' =>
        cases h
        rw [heq] at h₁
        rw [heq'] at h₂
        simp only [List.length_cons] at h₁ h₂ ⊢
        omega
      · cases h
    · cases h
  · cases h

/-- A value with its references replaced by the values that `known` tells. -/
def expand (known : Text → Option Text) (s : Text) : Text :=
  match h : reference? s with
  | some (name, other, rest) =>
    have := reference?_length h
    (known name).getD other ++ expand known rest
  | none =>
    match s with
    | [] => []
    | c :: s => c :: expand known s
termination_by s.length

/-- Variables with the value of one of them changed; a new one goes to the end. -/
def assign (name : Text) (value : Option Text) : List Binding → List Binding
  | [] => [(name, value)]
  | b :: known => if b.1 = name then (name, value) :: known else b :: assign name value known

/-- The variables of a file with the values they get, each once and where it comes first.
References see the variables before them and those of `outside`. -/
def values (outside : List (Text × Text)) (s : Text) : List Binding :=
  (bindings s).foldl (fun sofar (name, value) =>
    let known (n : Text) : Option Text :=
      match sofar.lookup n with
      | some value => some (value.getD [])
      | none => outside.lookup n
    assign name (value.map (expand known)) sofar) []

end SourceNotes.EnvFile
