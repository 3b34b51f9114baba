/-
Globs.

A glob is a pattern for one name: a star stands for any characters, a question
mark for one, and brackets for one out of a set. There is no way to quote. Globs can
be written with codes that are no characters; those stand for no part of a name, but
they can be the ends of ranges.

* **`Glob.ofText`**, **`Glob.ofCodes`** — reads a glob;
* **`Glob.fits`** — whether a name as a whole fits a glob.
-/
import SourceNotes.Text.Codes

namespace SourceNotes

/-- One item of a glob. -/
inductive Glob.Item where
  | code (n : Nat)
  | anyChar
  | anyRun
  /-- One of the codes, or one in the closed ranges; the other way round if negated. -/
  | set (negated : Bool) (codes : Codes) (ranges : List (Nat × Nat))
  deriving DecidableEq, Repr

/-- A glob: its items in order. -/
abbrev Glob := List Glob.Item

namespace Glob

/-! ### Reading sets -/

/-- Cuts the inside of brackets at the hyphens that form ranges: the first may
come after `least` codes, each further one after two. -/
def chunks (least : Nat) (s : Codes) : List Codes :=
  match h : (s.drop least).dropWhile (· ≠ '-'.toNat) with
  | [] => [s]
  | c :: rest =>
    have : rest.length < s.length := by
      have h₁ := (List.dropWhile_suffix (· ≠ '-'.toNat) (l := s.drop least)).length_le
      rw [h] at h₁
      simp only [List.length_cons, List.length_drop] at h₁
      omega
    s.take (s.length - (rest.length + 1)) :: chunks 2 rest
termination_by s.length

/-- A hyphen at the very end stands for itself. -/
def closeChunks : List Codes → List Codes
  | [c, []] => [c ++ ['-'.toNat]]
  | c :: cs => c :: closeChunks cs
  | [] => []

/-- Takes out the ranges whose ends are in the wrong order. -/
def dropEmptyRanges : List Codes → List Codes
  | [] => []
  | c :: cs =>
    match dropEmptyRanges cs with
    | [] => [c]
    | d :: ds =>
      match c.getLast?, d.head? with
      | some lo, some hi => if hi < lo then (c.dropLast ++ d.tail) :: ds else c :: d :: ds
      | _, _ => c :: d :: ds

/-- The ranges between neighbouring chunks. -/
def ranges : List Codes → List (Nat × Nat)
  | c :: d :: ds =>
    match c.getLast?, d.head? with
    | some lo, some hi => (lo, hi) :: ranges (d :: ds)
    | _, _ => ranges (d :: ds)
  | _ => []

/-- The set that the inside of brackets is. An exclamation mark at the front
negates; a hyphen right behind it stands for itself. -/
def setOf (inside : Codes) : Item :=
  let isNegated (c : Codes) : Bool := c.head? == some '!'.toNat
  match dropEmptyRanges (closeChunks (chunks (if isNegated inside then 2 else 1) inside)) with
  | [] => .set false [] []
  | c :: cs =>
    if isNegated c then
      match c.tail, cs with
      | c, [] => .set true c []
      | [], c :: cs => .set true ('-'.toNat :: c ++ cs.flatten) (ranges (c :: cs))
      | c, cs => .set true (c ++ cs.flatten) (ranges (c :: cs))
    else .set false (c ++ cs.flatten) (ranges (c :: cs))

/-- The number of codes after an opening bracket that cannot close it. -/
def bracketFront (s : Codes) : Nat :=
  let negation := if s.head? = some '!'.toNat then 1 else 0
  negation + if (s.drop negation).head? = some ']'.toNat then 1 else 0

/-- The inside of brackets, up to the bracket that closes them, and what follows
that. -/
def bracketed? (s : Codes) : Option (Codes × Codes) :=
  match (s.drop (bracketFront s)).dropWhile (· ≠ ']'.toNat) with
  | [] => none
  | _ :: rest =>
    some (s.take (bracketFront s) ++ (s.drop (bracketFront s)).takeWhile (· ≠ ']'.toNat), rest)

theorem bracketed?_length {s inside rest : Codes} (h : bracketed? s = some (inside, rest)) :
    rest.length < s.length := by
  unfold bracketed? at h
  split at h
  · cases h
  · next c r heq =>
    cases h
    have h₂ := (List.dropWhile_suffix (· ≠ ']'.toNat) (l := s.drop (bracketFront s))).length_le
    rw [heq] at h₂
    simp only [List.length_cons, List.length_drop] at h₂
    omega

/-! ### Globs -/

/-- Reads a glob. Brackets that are not closed stand for themselves. -/
def ofCodes (c : Codes) : Glob :=
  match c with
  | [] => []
  | n :: s =>
    if n = '*'.toNat then .anyRun :: ofCodes s
    else if n = '?'.toNat then .anyChar :: ofCodes s
    else if n = '['.toNat then
      match h : bracketed? s with
      | some (inside, rest) =>
        have := bracketed?_length h
        setOf inside :: ofCodes rest
      | none => .code n :: ofCodes s
    else .code n :: ofCodes s
termination_by c.length

/-- Reads a glob. -/
def ofText (s : Text) : Glob := ofCodes (Codes.ofText s)

/-- Whether a single character fits an item. -/
def Item.admits : Item → Char → Bool
  | .code n, d => n == d.toNat
  | .anyChar, _ => true
  | .anyRun, _ => true
  | .set negated codes ranges, d =>
    (codes.contains d.toNat || ranges.any fun r => r.1 ≤ d.toNat && d.toNat ≤ r.2) != negated

/-- A text and all that is left of it after dropping characters from the front,
longest first. -/
def suffixes : Text → List Text
  | [] => [[]]
  | c :: s => (c :: s) :: suffixes s

/-- What can be left of one of the texts `ss` after a stretch that fits the glob;
both lists have the longest first. -/
def leftovers : Glob → List Text → List Text
  | [], ss => ss
  | .anyRun :: g, ss => leftovers g ((ss.head?.map suffixes).getD [])
  | item :: g, ss =>
    leftovers g (ss.filterMap fun
      | [] => none
      | c :: s => if item.admits c then some s else none)

/-- Whether a name as a whole fits a glob. -/
def fits (g : Glob) (name : Text) : Bool := (leftovers g [name]).contains []

/-- Whether a name fits one of some globs. -/
def anyFits (globs : List Glob) (name : Text) : Bool := globs.any fun g => g.fits name

end Glob

end SourceNotes
