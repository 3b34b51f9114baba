/-
Cutting a text at a separator, at a prefix or at a suffix.

* **`pieces`** — the stretches between the occurrences of one member; there is always
  at least one, and `join` puts them back (`join_pieces`);
* **`notAfter`** — the order of texts;
* **`dropPrefix`**, **`dropSuffix`** — a text without one given end, unchanged
  where it does not have that end.
-/
import SourceNotes.Text.Blank

namespace SourceNotes.Text

/-- The stretches of a list between the occurrences of `sep`. -/
def pieces {α : Type} [DecidableEq α] (sep : α) : List α → List (List α)
  | [] => [[]]
  | c :: s =>
    match pieces sep s with
    | [] => [[c]]
    | p :: ps => if c = sep then [] :: p :: ps else (c :: p) :: ps

/-- Lists one after another with `sep` between neighbours. -/
def join {α : Type} (sep : α) : List (List α) → List α
  | [] => []
  | [p] => p
  | p :: q :: ps => p ++ sep :: join sep (q :: ps)

theorem pieces_ne_nil {α : Type} [DecidableEq α] (sep : α) (s : List α) : pieces sep s ≠ [] := by
  cases s with
  | nil => simp [pieces]
  | cons c s =>
    rw [pieces]
    split
    · simp
    · split <;> simp

/-- Nothing is lost by cutting: the separators go back between the pieces. -/
theorem join_pieces {α : Type} [DecidableEq α] (sep : α) (s : List α) :
    join sep (pieces sep s) = s := by
  induction s with
  | nil => rfl
  | cons c s ih =>
    rw [pieces]
    split
    · exact absurd ‹_› (pieces_ne_nil sep s)
    · next p ps h =>
      rw [h] at ih
      split
      · next hc => simp [join, ih, hc]
      · cases ps with
        | nil => simpa [join] using ih
        | cons q qs => simpa [join] using ih

/-- Whether `a` comes before `b` or is the same, by the codes of their characters. -/
def notAfter : Text → Text → Bool
  | [], _ => true
  | _ :: _, [] => false
  | c :: a, d :: b => c.toNat < d.toNat || (c == d && notAfter a b)

/-- Whether `s` has the beginning `p`. -/
def startsWith (p s : Text) : Bool := p.isPrefixOf s

/-- Whether `s` has the end `p`. -/
def endsWith (p s : Text) : Bool := p.isSuffixOf s

/-- A text without the beginning `p`, where it has it. -/
def dropPrefix (p s : Text) : Text := if startsWith p s then s.drop p.length else s

/-- A text without the end `p`, where it has it. -/
def dropSuffix (p s : Text) : Text :=
  if endsWith p s then s.take (s.length - p.length) else s

/-- The pieces between commas, trimmed, the empty ones left out. -/
def commaList (s : Text) : List Text :=
  ((pieces ',' s).map trim).filter (· ≠ [])

end SourceNotes.Text
