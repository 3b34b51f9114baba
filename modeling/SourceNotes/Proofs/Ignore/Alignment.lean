/-
Globs in line with names.

A list of globs fits a path if the path can be cut into blocks, one for each glob in their order and
with nothing left over: two stars take a block of any length, and any other glob takes a single
name. Where the cuts are does not have to be known, for all blocks that two stars could take are
tried.

* **`Aligned`** — the globs in line with blocks of names;
* **`namesFit_iff_aligned`** — a list of globs fits a list of names if and only if they are aligned.
-/
import Mathlib.Data.List.Forall2
import SourceNotes.Ignore.Pattern

namespace SourceNotes.Ignore

variable {glob : Text} {globs globs' names rest : List Text}

/-- Whether a glob may take a block of names: two stars take any, and any other glob takes a single
name that fits it. -/
def Takes (glob : Text) (block : List Text) : Prop :=
  glob ≠ anyNames → ∃ name, block = [name] ∧ (Glob.ofText glob).fits name = true

/-- The names can be cut into blocks in such a way that each glob takes one, in order. -/
def Aligned (globs names : List Text) : Prop :=
  ∃ blocks, List.Forall₂ Takes globs blocks ∧ blocks.flatten = names

/-! ### Blocks -/

theorem takes_anyNames (block : List Text) : Takes anyNames block := fun h => absurd rfl h

theorem aligned_nil : Aligned [] names ↔ names = [] := by
  constructor
  · rintro ⟨blocks, hblocks, rfl⟩
    cases hblocks
    rfl
  · rintro rfl
    exact ⟨[], .nil, rfl⟩

theorem aligned_cons :
    Aligned (glob :: globs) names ↔
      ∃ block rest, block ++ rest = names ∧ Takes glob block ∧ Aligned globs rest := by
  constructor
  · rintro ⟨blocks, hblocks, rfl⟩
    cases hblocks with
    | @cons _ block _ blocks hblock hblocks =>
      exact ⟨block, blocks.flatten, rfl, hblock, blocks, hblocks, rfl⟩
  · rintro ⟨block, rest, rfl, hblock, blocks, hblocks, rfl⟩
    exact ⟨block :: blocks, .cons hblock hblocks, rfl⟩

theorem aligned_append :
    Aligned (globs ++ globs') names ↔
      ∃ front behind, front ++ behind = names ∧ Aligned globs front ∧ Aligned globs' behind := by
  induction globs generalizing names with
  | nil =>
    constructor
    · exact fun h => ⟨[], names, rfl, aligned_nil.2 rfl, h⟩
    · rintro ⟨front, behind, rfl, hfront, hbehind⟩
      rw [aligned_nil.1 hfront]
      exact hbehind
  | cons glob globs ih =>
    rw [List.cons_append, aligned_cons]
    constructor
    · rintro ⟨block, rest, rfl, hblock, hrest⟩
      obtain ⟨front, behind, rfl, hfront, hbehind⟩ := ih.1 hrest
      have hcons := aligned_cons.2 ⟨block, front, rfl, hblock, hfront⟩
      exact ⟨block ++ front, behind, List.append_assoc .., hcons, hbehind⟩
    · rintro ⟨front, behind, rfl, hfront, hbehind⟩
      obtain ⟨block, rest, rfl, hblock, hrest⟩ := aligned_cons.1 hfront
      exact ⟨block, rest ++ behind, (List.append_assoc ..).symm, hblock,
        ih.2 ⟨rest, behind, rfl, hrest, hbehind⟩⟩

/-- However many double stars there are in a row, they take any names. -/
theorem aligned_replicate (n : Nat) (names : List Text) :
    Aligned (List.replicate (n + 1) anyNames) names := by
  induction n with
  | zero => exact ⟨[names], .cons (takes_anyNames names) .nil, List.append_nil names⟩
  | succ n ih => exact aligned_cons.2 ⟨[], names, rfl, takes_anyNames [], ih⟩

/-- Each glob takes one name where there are no two stars. -/
theorem Aligned.length_eq (h : Aligned globs names) (hstars : anyNames ∉ globs) :
    names.length = globs.length := by
  induction globs generalizing names with
  | nil => rw [aligned_nil.1 h]
  | cons glob globs ih =>
    rw [List.mem_cons, not_or] at hstars
    obtain ⟨block, rest, rfl, hblock, hrest⟩ := aligned_cons.1 h
    obtain ⟨name, rfl, -⟩ := hblock (Ne.symm hstars.1)
    rw [List.singleton_append, List.length_cons, List.length_cons, ih hrest hstars.2]

/-! ### Fitting -/

theorem mem_suffixes : rest ∈ suffixes names ↔ ∃ block, block ++ rest = names := by
  show _ ↔ rest <:+ names
  induction names with
  | nil => rw [suffixes, List.mem_singleton, List.suffix_nil]
  | cons name names ih => rw [suffixes, List.mem_cons, ih, List.suffix_cons_iff]

theorem namesFit_anyNames :
    namesFit (anyNames :: globs) names = true ↔
      ∃ block rest, block ++ rest = names ∧ namesFit globs rest = true := by
  rw [namesFit.eq_def]
  dsimp only
  rw [if_pos rfl, List.any_eq_true]
  constructor
  · rintro ⟨rest, hmem, hfit⟩
    obtain ⟨block, hblock⟩ := mem_suffixes.1 hmem
    exact ⟨block, rest, hblock, hfit⟩
  · rintro ⟨block, rest, hblock, hfit⟩
    exact ⟨rest, mem_suffixes.2 ⟨block, hblock⟩, hfit⟩

theorem namesFit_of_ne (h : glob ≠ anyNames) :
    namesFit (glob :: globs) names = true ↔
      ∃ name rest, name :: rest = names ∧ (Glob.ofText glob).fits name = true ∧
        namesFit globs rest = true := by
  rw [namesFit.eq_def]
  dsimp only
  rw [if_neg h]
  cases names with
  | nil => simp
  | cons name names => simp

theorem aligned_of_ne (h : glob ≠ anyNames) :
    Aligned (glob :: globs) names ↔
      ∃ name rest, name :: rest = names ∧ (Glob.ofText glob).fits name = true ∧
        Aligned globs rest := by
  rw [aligned_cons]
  constructor
  · rintro ⟨block, rest, rfl, hblock, hrest⟩
    obtain ⟨name, rfl, hfit⟩ := hblock h
    exact ⟨name, rest, rfl, hfit, hrest⟩
  · rintro ⟨name, rest, rfl, hfit, hrest⟩
    exact ⟨[name], rest, rfl, fun _ => ⟨name, rfl, hfit⟩, hrest⟩

theorem namesFit_iff : namesFit globs names = true ↔ Aligned globs names := by
  induction globs generalizing names with
  | nil => rw [namesFit, List.isEmpty_iff, aligned_nil]
  | cons glob globs ih =>
    by_cases h : glob = anyNames
    · subst h
      rw [namesFit_anyNames, aligned_cons]
      simp only [ih, takes_anyNames, true_and]
    · rw [namesFit_of_ne h, aligned_of_ne h]
      simp only [ih]

/-- A list of globs fits a list of names if and only if they are aligned. So double stars next to
each other count as one, and without them only as many names fit as there are globs. -/
theorem namesFit_iff_aligned (globs names : List Text) :
    (namesFit globs names = true ↔ Aligned globs names) ∧
      (∀ front behind n, globs = front ++ (List.replicate (n + 1) anyNames ++ behind) →
        namesFit globs names = namesFit (front ++ anyNames :: behind) names) ∧
      (anyNames ∉ globs → namesFit globs names = true → names.length = globs.length) := by
  refine ⟨namesFit_iff, ?_, fun hstars hfit => (namesFit_iff.1 hfit).length_eq hstars⟩
  rintro front behind n rfl
  -- Either row takes all that is between the blocks in front of it and those behind.
  have hone : anyNames :: behind = List.replicate (0 + 1) anyNames ++ behind := rfl
  have hall (m : Nat) :
      Aligned (front ++ (List.replicate (m + 1) anyNames ++ behind)) names ↔
        ∃ s t, s ++ t = names ∧ Aligned front s ∧ ∃ u v, u ++ v = t ∧ Aligned behind v := by
    simp only [aligned_append, aligned_replicate, true_and]
  rw [Bool.eq_iff_iff, namesFit_iff, namesFit_iff, hone, hall, hall]

/-- The globs of `docs/**/**/*.md`, of which the double stars take two names and none, and those of
`docs/*.md`. -/
theorem namesFit_iff_aligned_docs :
    let docs : Text := "docs".toList
    let pages : Text := "*.md".toList
    let path : List Text := ["docs", "a", "b", "page.md"].map String.toList
    let short : List Text := ["docs", "page.md"].map String.toList
    (namesFit [docs, anyNames, anyNames, pages] path = true ∧
        Aligned [docs, anyNames, anyNames, pages] path) ∧
      namesFit [docs, anyNames, anyNames, pages] path = namesFit [docs, anyNames, pages] path ∧
      anyNames ∉ [docs, pages] ∧ namesFit [docs, pages] short = true ∧
      short.length = [docs, pages].length := by
  intro docs pages path short
  have hdocs : (Glob.ofText docs).fits "docs".toList = true := by decide +kernel
  have hpages : (Glob.ofText pages).fits "page.md".toList = true := by decide +kernel
  have htakes {glob name : Text} (h : (Glob.ofText glob).fits name = true) : Takes glob [name] :=
    fun _ => ⟨name, rfl, h⟩
  have hlong : Aligned [docs, anyNames, anyNames, pages] path :=
    ⟨[["docs".toList], ["a".toList, "b".toList], [], ["page.md".toList]],
      .cons (htakes hdocs) (.cons (takes_anyNames _) (.cons (takes_anyNames _)
        (.cons (htakes hpages) .nil))), rfl⟩
  have hshort : Aligned [docs, pages] short :=
    ⟨[["docs".toList], ["page.md".toList]], .cons (htakes hdocs) (.cons (htakes hpages) .nil), rfl⟩
  have hstars : anyNames ∉ [docs, pages] := by decide
  obtain ⟨hiff, hrow, -⟩ := namesFit_iff_aligned [docs, anyNames, anyNames, pages] path
  obtain ⟨hiff', -, hlength⟩ := namesFit_iff_aligned [docs, pages] short
  exact ⟨⟨hiff.2 hlong, hlong⟩, hrow [docs] [pages] 1 rfl, hstars, hiff'.2 hshort,
    hlength hstars (hiff'.2 hshort)⟩

end SourceNotes.Ignore
