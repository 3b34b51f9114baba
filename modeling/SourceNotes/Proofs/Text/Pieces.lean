/-
The pieces of a text put together from parts.

Where two texts meet, the last piece of one and the first piece of the other become
one piece; all others stay.

* **`pieces_append`** — the pieces of two texts one after another;
* **`getElem?_pieces_between`** — the pieces of a text inside a larger one: each is a
  piece of the larger text, save that the first and the last may go on outside.
-/
import SourceNotes.Text.Pieces

namespace SourceNotes.Text

variable {α : Type} [DecidableEq α] {sep c : α} {s p : List α}

/-- The first piece. -/
def firstPiece (sep : α) (s : List α) : List α := (pieces sep s).headD []

/-- The last piece. -/
def lastPiece (sep : α) (s : List α) : List α := (pieces sep s).getLastD []

theorem pieces_cons_sep (sep : α) (s : List α) : pieces sep (sep :: s) = [] :: pieces sep s := by
  rw [pieces]
  split
  · next h => exact absurd h (pieces_ne_nil sep s)
  · next p ps h => rw [if_pos rfl, h]

theorem pieces_cons_of_ne {ps : List (List α)} (hc : c ≠ sep) (h : pieces sep s = p :: ps) :
    pieces sep (c :: s) = (c :: p) :: ps := by
  rw [pieces, h]
  exact if_neg hc

/-- A text without the separator is one piece. -/
theorem pieces_of_not_mem (h : sep ∉ s) : pieces sep s = [s] := by
  induction s with
  | nil => rfl
  | cons c s ih =>
    rw [List.mem_cons, not_or] at h
    exact pieces_cons_of_ne (Ne.symm h.1) (ih h.2)

/-- No piece has the separator in it. -/
theorem not_mem_of_mem_pieces (h : p ∈ pieces sep s) : sep ∉ p := by
  induction s generalizing p with
  | nil =>
    rw [List.mem_singleton.1 h]
    exact List.not_mem_nil
  | cons c s ih =>
    by_cases hc : c = sep
    · subst hc
      rw [pieces_cons_sep] at h
      rcases List.mem_cons.1 h with rfl | h
      · exact List.not_mem_nil
      · exact ih h
    · obtain ⟨q, ps, hs⟩ := List.exists_cons_of_ne_nil (pieces_ne_nil sep s)
      rw [pieces_cons_of_ne hc hs] at h
      rw [hs] at ih
      rcases List.mem_cons.1 h with rfl | h
      · rw [List.mem_cons, not_or]
        exact ⟨Ne.symm hc, ih (List.mem_cons_self ..)⟩
      · exact ih (List.mem_cons_of_mem _ h)

theorem mem_of_mem_pieces (h : p ∈ pieces sep s) (hc : c ∈ p) : c ∈ s := by
  induction s generalizing p with
  | nil =>
    rw [List.mem_singleton.1 h] at hc
    cases hc
  | cons d s ih =>
    by_cases hd : d = sep
    · subst hd
      rw [pieces_cons_sep] at h
      rcases List.mem_cons.1 h with rfl | h
      · cases hc
      · exact List.mem_cons_of_mem d (ih h hc)
    · obtain ⟨q, ps, hs⟩ := List.exists_cons_of_ne_nil (pieces_ne_nil sep s)
      rw [pieces_cons_of_ne hd hs] at h
      rw [hs] at ih
      rcases List.mem_cons.1 h with rfl | h
      · rcases List.mem_cons.1 hc with rfl | hc
        · exact List.mem_cons_self
        · exact List.mem_cons_of_mem d (ih List.mem_cons_self hc)
      · exact List.mem_cons_of_mem d (ih (List.mem_cons_of_mem q h) hc)

omit [DecidableEq α] in
theorem mem_of_mem_join {ps : List (List α)} (h : c ∈ join sep ps) :
    c = sep ∨ ∃ p ∈ ps, c ∈ p := by
  fun_induction join sep ps with
  | case1 => cases h
  | case2 p => exact .inr ⟨p, List.mem_cons_self, h⟩
  | case3 p q ps ih =>
    rcases List.mem_append.1 h with hp | hrest
    · exact .inr ⟨p, List.mem_cons_self, hp⟩
    rcases List.mem_cons.1 hrest with rfl | hrest
    · exact .inl rfl
    · refine (ih hrest).imp_right ?_
      rintro ⟨r, hr, hc⟩
      exact ⟨r, List.mem_cons_of_mem p hr, hc⟩

/-- There is one piece more than there are separators. -/
theorem length_pieces (sep : α) (s : List α) : (pieces sep s).length = s.count sep + 1 := by
  induction s with
  | nil => rfl
  | cons c s ih =>
    by_cases hc : c = sep
    · subst hc
      rw [pieces_cons_sep, List.length_cons, ih, List.count_cons_self]
    · obtain ⟨p, ps, hs⟩ := List.exists_cons_of_ne_nil (pieces_ne_nil sep s)
      rw [pieces_cons_of_ne hc hs, List.count_cons_of_ne hc, ← ih, hs]
      rfl

/-- Where two texts meet, two pieces become one. -/
theorem pieces_append {t x y : List α} {xs ys : List (List α)} (hs : pieces sep s = xs ++ [x])
    (ht : pieces sep t = y :: ys) : pieces sep (s ++ t) = xs ++ (x ++ y) :: ys := by
  induction s generalizing xs x with
  | nil =>
    -- An empty text has one piece, and it is empty.
    rcases xs with _ | ⟨q, xs⟩
    · cases hs
      exact ht
    · have := congrArg List.length hs
      simp [pieces] at this
  | cons c s ih =>
    by_cases hc : c = sep
    · subst hc
      rw [pieces_cons_sep] at hs
      rw [List.cons_append, pieces_cons_sep]
      rcases xs with _ | ⟨q, xs⟩
      · exact absurd (List.cons.inj hs).2 (pieces_ne_nil c s)
      · obtain ⟨rfl, hrest⟩ := List.cons.inj hs
        rw [ih hrest]
        rfl
    · obtain ⟨p, ps, hp⟩ := List.exists_cons_of_ne_nil (pieces_ne_nil sep s)
      rw [pieces_cons_of_ne hc hp] at hs
      rw [List.cons_append]
      rcases xs with _ | ⟨q, xs⟩
      · -- The first piece is the last one as well.
        obtain ⟨rfl, rfl⟩ := List.cons.inj hs
        exact pieces_cons_of_ne hc (ih (show pieces sep s = [] ++ [p] from hp))
      · obtain ⟨rfl, rfl⟩ := List.cons.inj hs
        exact pieces_cons_of_ne hc (ih (show pieces sep s = (p :: xs) ++ [x] from hp))

/-- Lists that end with a separator each are the pieces, save for an empty one at the end. -/
theorem pieces_flatMap {ps : List (List α)} (h : ∀ p ∈ ps, sep ∉ p) :
    pieces sep (ps.flatMap fun p => p ++ [sep]) = ps ++ [[]] := by
  induction ps with
  | nil => rfl
  | cons p ps ih =>
    rw [List.forall_mem_cons] at h
    have hfirst : pieces sep (p ++ [sep]) = [p] ++ [[]] := by
      have hone : pieces sep p = [] ++ [p] := pieces_of_not_mem h.1
      have hend : pieces sep [sep] = [] :: [[]] := pieces_cons_sep sep []
      rw [pieces_append hone hend, List.append_nil]
      rfl
    obtain ⟨q, qs, hq⟩ := List.exists_cons_of_ne_nil (pieces_ne_nil sep (ps.flatMap (· ++ [sep])))
    rw [List.flatMap_cons, pieces_append hfirst hq, List.nil_append, ← hq, ih h.2]
    rfl

/-- The pieces, the last one apart. -/
theorem exists_pieces_concat (sep : α) (s : List α) :
    ∃ ps p, pieces sep s = ps ++ [p] ∧ ps.length = s.count sep ∧ lastPiece sep s = p := by
  rcases List.eq_nil_or_concat (pieces sep s) with hnil | ⟨ps, p, hs⟩
  · exact absurd hnil (pieces_ne_nil sep s)
  · rw [List.concat_eq_append] at hs
    have hlen := length_pieces sep s
    rw [hs, List.length_append, List.length_singleton] at hlen
    exact ⟨ps, p, hs, Nat.succ.inj hlen, by simp [lastPiece, hs]⟩

/-- A piece of `s` inside a larger text. -/
theorem getElem?_pieces_between {i : Nat} (before after : List α)
    (h : (pieces sep s)[i]? = some p) :
    (pieces sep (before ++ (s ++ after)))[before.count sep + i]? =
      some ((if i = 0 then lastPiece sep before else []) ++ p ++
        if i = s.count sep then firstPiece sep after else []) := by
  obtain ⟨zs, z, hz, hzs, hlast⟩ := exists_pieces_concat sep before
  obtain ⟨xs, x, hx, hxs, -⟩ := exists_pieces_concat sep s
  obtain ⟨y, ys, hy⟩ := List.exists_cons_of_ne_nil (pieces_ne_nil sep after)
  have hfirst : firstPiece sep after = y := by simp [firstPiece, hy]
  have hright := pieces_append hx hy
  -- First what comes behind: it goes on with the last piece of `s` only.
  have hgoesOn : (pieces sep (s ++ after))[i]? =
      some (p ++ if i = s.count sep then firstPiece sep after else []) := by
    rw [hx, List.getElem?_append, hxs] at h
    rw [hright, List.getElem?_append, hxs, hfirst]
    by_cases hi : i < s.count sep
    · rw [if_pos hi] at h ⊢
      rw [if_neg (Nat.ne_of_lt hi), List.append_nil]
      exact h
    · rw [if_neg hi] at h ⊢
      obtain ⟨hle, rfl⟩ : i - s.count sep = 0 ∧ x = p := by
        rcases hj : i - s.count sep with _ | j
        · rw [hj] at h
          exact ⟨rfl, Option.some.inj h⟩
        · rw [hj] at h
          cases h
      rw [hle, if_pos (by omega)]
      rfl
  -- Then what comes before: its last piece goes on with the first one.
  obtain ⟨w, ws, hw⟩ := List.exists_cons_of_ne_nil (pieces_ne_nil sep (s ++ after))
  rw [pieces_append hz hw, List.getElem?_append, hzs, if_neg (by omega), Nat.add_sub_cancel_left,
    hlast]
  rw [hw] at hgoesOn
  rcases i with _ | i
  · rw [List.getElem?_cons_zero] at hgoesOn ⊢
    rw [Option.some.inj hgoesOn, if_pos rfl, List.append_assoc]
  · rw [List.getElem?_cons_succ] at hgoesOn ⊢
    rw [hgoesOn, if_neg (Nat.succ_ne_zero i)]
    rfl

theorem notAfter_iff {a b : Text} : notAfter a b = true ↔ ¬ b < a := by
  fun_induction notAfter a b with
  | case1 => simp
  | case2 => simp
  | case3 c a d b ih =>
    have hlt (x y : Char) : x < y ↔ x.toNat < y.toNat := Iff.rfl
    rw [List.cons_lt_cons_iff, Bool.or_eq_true, Bool.and_eq_true, decide_eq_true_eq, beq_iff_eq,
      ih, hlt]
    by_cases heq : c = d
    · simp [heq]
    · have hne : c.toNat ≠ d.toNat := fun h => heq (Char.toNat_inj.1 h)
      simp only [heq, Ne.symm heq, false_and, or_false]
      omega

theorem notAfter_trans {a b c : Text} (hab : notAfter a b = true) (hbc : notAfter b c = true) :
    notAfter a c = true := by
  rw [notAfter_iff, List.not_lt] at hab hbc ⊢
  exact List.le_trans hab hbc

theorem notAfter_total (a b : Text) : notAfter a b = true ∨ notAfter b a = true := by
  rw [notAfter_iff, notAfter_iff, List.not_lt, List.not_lt]
  exact List.le_total a b

theorem notAfter_antisymm {a b : Text} (hab : notAfter a b = true) (hba : notAfter b a = true) :
    a = b := by
  rw [notAfter_iff, List.not_lt] at hab hba
  exact List.le_antisymm hab hba

end SourceNotes.Text
