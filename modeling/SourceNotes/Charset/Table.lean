/-
Character sets that are given by a table.

A table assigns runes to codes of one octet or more. Each row of it has the codes that differ in
their last octet only. In some tables there are codes that stand for two runes, which is why a chunk
can yield more runes than it has octets; such a code has two octets at least.

* **`Table.step`** — reads the first code of some octets;
* **`Table.length_of_step`**, **`Table.length_of_step_pair`** — a code has at least as many octets
  as runes.
-/
import SourceNotes.Charset.Octets

namespace SourceNotes.Charset

/-- The codes of a table that begin alike and have one octet more. -/
structure Row where
  /-- The octets before the last one. -/
  lead : Octets := []
  /-- The last octet of the first code. -/
  first : UInt8 := 0
  /-- The runes of the codes, in the order of their last octets. -/
  cells : List (Option Char)
  /-- The codes that stand for two runes, by their last octets. -/
  pairs : List (UInt8 × Char × Char) := []
  pairs_eq_nil : lead = [] → pairs = [] := by decide
  deriving DecidableEq, Repr

/-- A character set that is given by a table. -/
structure Table where
  /-- The name under which it is reported. -/
  name : String
  /-- Folded names that stand for it beside that one. -/
  aliases : List String := []
  rows : List Row
  /-- What is wrong with octets to which it assigns nothing. -/
  fault : Fault := .unassigned
  deriving DecidableEq, Repr

/-- The rune that ends with the octet `b`, or the two. -/
def Row.code? (row : Row) (b : UInt8) : Option (Char × Option Char) :=
  match row.pairs.lookup b with
  | some (c, d) => some (c, some d)
  | none =>
    if b < row.first then none
    else (row.cells[b.toNat - row.first.toNat]?).join.map (·, none)

namespace Table

/-- The code that ends with the octet `b` behind the octets `lead`. -/
def code? (t : Table) (lead : Octets) (b : UInt8) : Option (Char × Option Char) :=
  (t.rows.find? fun row => row.lead = lead).bind fun row => row.code? b

/-- Whether a longer code may begin like this. -/
def isLead (t : Table) (octets : Octets) : Bool :=
  t.rows.any fun row => octets.isPrefixOf row.lead

/-- Reads on behind octets that are the lead of a code. The shortest code counts. -/
def readOn (t : Table) (lead : Octets) : Octets → Step
  | [] => .short .incompleteSequence
  | b :: s =>
    match t.code? lead b with
    | some (c, none) => .rune c s
    | some (c, some d) => .pair c d s
    | none => if t.isLead (lead ++ [b]) then t.readOn (lead ++ [b]) s else .bad t.fault

/-- The first code of the octets `b :: s`. -/
def step (t : Table) (b : UInt8) (s : Octets) : Step := t.readOn [] (b :: s)

/-- Whether some of its codes stand for two runes. -/
def hasPairs (t : Table) : Bool := t.rows.any fun row => !row.pairs.isEmpty

variable {t : Table} {lead s rest : Octets} {b : UInt8} {c d : Char} {x : Text}

theorem exists_row_of_code? (h : t.code? lead b = some (c, some d)) :
    ∃ row ∈ t.rows, row.lead = lead ∧ row.pairs ≠ [] := by
  unfold code? at h
  obtain ⟨row, hrow, hcode⟩ := Option.bind_eq_some_iff.1 h
  refine ⟨row, List.mem_of_find?_eq_some hrow, by simpa using List.find?_some hrow, fun hnil => ?_⟩
  unfold Row.code? at hcode
  rw [hnil] at hcode
  simp at hcode

/-- A code of two runes has two octets at least. -/
theorem lead_ne_nil_of_code? (h : t.code? lead b = some (c, some d)) : lead ≠ [] := by
  obtain ⟨row, -, hlead, hpairs⟩ := exists_row_of_code? h
  rintro rfl
  exact hpairs (row.pairs_eq_nil hlead)

/-- What has been read is a code of the table, up to its last octet. -/
theorem exists_code_of_readOn (h : (t.readOn lead s).read? = some (x, rest)) :
    ∃ u b c d, s = u ++ b :: rest ∧ t.code? (lead ++ u) b = some (c, d) ∧ x = c :: d.toList := by
  induction s generalizing lead with
  | nil => cases h
  | cons b s ih =>
    unfold readOn at h
    split at h
    · next c hcode =>
      cases h
      exact ⟨[], b, c, none, rfl, by rwa [List.append_nil], rfl⟩
    · next c d hcode =>
      cases h
      exact ⟨[], b, c, some d, rfl, by rwa [List.append_nil], rfl⟩
    · split at h
      · obtain ⟨u, b', c, d, rfl, hcode, hx⟩ := ih h
        rw [List.append_assoc] at hcode
        exact ⟨b :: u, b', c, d, rfl, hcode, hx⟩
      · cases h

/-- Reading a rune uses up the first octet at least. -/
theorem length_of_step (h : t.step b s = .rune c rest) : rest.length ≤ s.length := by
  obtain ⟨u, b', -, -, hs, -⟩ := exists_code_of_readOn (congrArg Step.read? h)
  have hlen := congrArg List.length hs
  simp only [List.length_append, List.length_cons] at hlen
  omega

/-- Reading two runes uses up another octet at least. -/
theorem length_of_step_pair (h : t.step b s = .pair c d rest) : rest.length < s.length := by
  obtain ⟨u, b', c', d', hs, hcode, hx⟩ := exists_code_of_readOn (congrArg Step.read? h)
  cases d' with
  | none => cases hx
  | some d' =>
    have hpos := List.length_pos_iff.2 (lead_ne_nil_of_code? hcode)
    have hlen := congrArg List.length hs
    simp only [List.nil_append, List.length_append, List.length_cons] at hlen hpos
    omega

theorem hasPairs_of_step (h : t.step b s = .pair c d rest) : t.hasPairs = true := by
  obtain ⟨u, b', c', d', -, hcode, hx⟩ := exists_code_of_readOn (congrArg Step.read? h)
  cases d' with
  | none => cases hx
  | some d' =>
    obtain ⟨row, hmem, -, hpairs⟩ := exists_row_of_code? hcode
    exact List.any_eq_true.2 ⟨row, hmem, by simpa using hpairs⟩

end Table

end SourceNotes.Charset
