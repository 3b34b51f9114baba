/-
Numbers.

A number is whole or a fraction. Fractions have a limited precision: they are
multiples of a power of two with 53 binary digits at most, and what lies between two
of them is rounded to the nearer one, or to the even one of two that are as near.

* **`Number.nearest`** — the fraction nearest to a quotient;
* **`Number.isSame`** — whether two numbers are the same, whole or not.
-/
import SourceNotes.Yaml.Character

namespace SourceNotes.Yaml

/-- A number. -/
inductive Number where
  /-- The product of the significand and a power of two. -/
  | finite (significand exponent : Int)
  | infinite (negative : Bool)
  /-- No number at all. There is a common one, which is the same as itself; any other
  is the same as nothing. -/
  | undefined (common : Bool)
  deriving DecidableEq, Repr

namespace Number

/-- A whole number. -/
def ofInt (n : Int) : Number := .finite n 0

/-- The number with the other sign. -/
def negated : Number → Number
  | .finite m e => .finite (-m) e
  | .infinite negative => .infinite !negative
  | .undefined common => .undefined common

/-- The number, negated or not. -/
def withSign (negative : Bool) (n : Number) : Number := if negative then n.negated else n

/-- A power of two, by which significands are shifted. -/
def power (exponent : Int) : Nat := Nat.pow 2 exponent.toNat

/-- Whether two numbers are the same. -/
def isSame : Number → Number → Bool
  | .finite m e, .finite m' e' => m * power (e - e') == m' * power (e' - e)
  | .infinite a, .infinite b => a == b
  | .undefined a, .undefined b => a && b
  | _, _ => false

/-- The number of binary digits of a fraction. -/
def precision : Nat := 53

/-- The least exponent of a fraction. -/
def leastExponent : Int := -1074

/-- The exponent at which fractions are infinite. -/
def infiniteExponent : Nat := 1024

/-- A quotient rounded to a whole number; of two that are as near the even one. -/
def roundedQuotient (num den : Nat) : Nat :=
  let q := num / den
  let left := 2 * (num % den)
  if den < left ∨ (left = den ∧ q % 2 = 1) then q + 1 else q

/-- The exponent of the fraction nearest to a quotient: the least one at which it has no
more digits than there are. -/
def exponentOf (num den : Nat) : Int :=
  let guess : Int := max leastExponent (num.log2 - den.log2 - precision)
  if Nat.pow 2 precision ≤ (num * power (-guess)) / (den * power guess) then guess + 1 else guess

/-- The fraction nearest to a quotient of two numbers. -/
def nearest (num den : Nat) : Number :=
  let e := exponentOf num den
  let m := roundedQuotient (num * power (-e)) (den * power e)
  if Nat.pow 2 infiniteExponent ≤ m * power e then .infinite false else .finite m e

/-- The fraction nearest to `m` times a power of two. -/
def rounded (m exponent : Int) : Number :=
  (nearest (m.natAbs * power exponent) (power (-exponent))).withSign (m < 0)

/-- The sum of two fractions. -/
def sum : Number → Number → Number
  | .finite m e, .finite m' e' => rounded (m * power (e - e') + m' * power (e' - e)) (min e e')
  | .undefined _, _ | _, .undefined _ => .undefined false
  | .infinite a, .infinite b => if a = b then .infinite a else .undefined false
  | .infinite a, .finite .. | .finite .., .infinite a => .infinite a

/-- The product of a fraction and a positive whole number, which is rounded first. -/
def scaled (n : Number) (factor : Nat) : Number :=
  match n, nearest factor 1 with
  | .finite m e, .finite m' e' => rounded (m * m') (e + e')
  | n, _ => n

end Number

end SourceNotes.Yaml
