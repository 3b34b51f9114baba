/-
The first place of a text where something holds.

A place in a text is given by what is before it and what is after it.

* **`First.prepend`**, **`First.of_prepend`** — going on behind a stretch in which there is no
  such place;
* **`exists_first`** — if there is any such place, there is a first one;
* **`First.or`** — the first place of two kinds.
-/
import SourceNotes.Text.Blank

namespace SourceNotes.Text

/-- Of the places of a text where `P` holds, the one between `s` and `rest` is the first. -/
structure First (P : Text → Text → Prop) (s rest : Text) : Prop where
  holds : P s rest
  least : ∀ u v, s ++ rest = u ++ v → P u v → s.length ≤ u.length

variable {P Q : Text → Text → Prop} {s rest rest' w : Text}

/-- Where two texts are the same, the longer of their beginnings goes on from the shorter. -/
theorem exists_append_of_length_le (h : w ++ rest = s ++ rest') (hlen : w.length ≤ s.length) :
    ∃ t, s = w ++ t ∧ rest = t ++ rest' := by
  rcases List.append_eq_append_iff.1 h with ⟨t, hs, hrest⟩ | ⟨t, hw, hrest⟩
  · exact ⟨t, hs, hrest⟩
  · have hnil : t = [] := by
      rw [hw, List.length_append] at hlen
      exact List.length_eq_zero_iff.1 (by omega)
    subst hnil
    rw [List.append_nil] at hw
    exact ⟨[], by rw [hw, List.append_nil], hrest.symm⟩

theorem exists_first {u v : Text} (h : P u v) :
    ∃ s rest, u ++ v = s ++ rest ∧ First P s rest := by
  induction hn : u.length using Nat.strongRecOn generalizing u v with
  | ind n ih =>
    subst hn
    by_cases hfirst : ∃ s rest, u ++ v = s ++ rest ∧ P s rest ∧ s.length < u.length
    · obtain ⟨s, rest, htext, hp, hlt⟩ := hfirst
      rw [htext]
      exact ih s.length hlt hp rfl
    · refine ⟨u, v, rfl, h, fun s rest htext hp => Nat.le_of_not_lt fun hlt => ?_⟩
      exact hfirst ⟨s, rest, htext, hp, hlt⟩

theorem First.here (h : P [] rest) : First P [] rest := ⟨h, fun _ _ _ _ => Nat.zero_le _⟩

/-- The first place of many is the first one of fewer, if it is one of them. -/
theorem First.of_imp (h : First P s rest) (hq : Q s rest)
    (himp : ∀ u v, s ++ rest = u ++ v → Q u v → P u v) : First Q s rest :=
  ⟨hq, fun u v huv hq => h.least u v huv (himp u v huv hq)⟩

theorem First.congr (hiff : ∀ u v, s ++ rest = u ++ v → (P u v ↔ Q u v)) (h : First P s rest) :
    First Q s rest :=
  h.of_imp ((hiff s rest rfl).1 h.holds) fun u v huv => (hiff u v huv).2

/-- Of the places where one thing or another holds, the first is the one that comes first. -/
theorem First.or (h : First P s rest)
    (hq : ∀ u v, s ++ rest = u ++ v → First Q u v → s.length ≤ u.length) :
    First (fun u v => P u v ∨ Q u v) s rest := by
  refine ⟨.inl h.holds, fun u v huv hor => ?_⟩
  rcases hor with hp | hq'
  · exact h.least u v huv hp
  · obtain ⟨t, w, htext, hfirst⟩ := exists_first hq'
    exact Nat.le_trans (hq t w (huv.trans htext) hfirst) (hfirst.least u v htext.symm hq')

theorem First.prepend (hno : ∀ u v, w ++ (s ++ rest) = u ++ v → u.length < w.length → ¬ P u v)
    (h : First (fun u v => P (w ++ u) v) s rest) : First P (w ++ s) rest := by
  refine ⟨h.holds, fun u v huv hp => ?_⟩
  rw [List.append_assoc] at huv
  by_cases hlen : u.length < w.length
  · exact absurd hp (hno u v huv hlen)
  · obtain ⟨t, rfl, htail⟩ := exists_append_of_length_le huv (Nat.le_of_not_lt hlen)
    have := h.least t v htail hp
    rw [List.length_append, List.length_append]
    omega

theorem First.of_prepend (h : First P (w ++ s) rest) :
    First (fun u v => P (w ++ u) v) s rest := by
  refine ⟨h.holds, fun u v huv hp => ?_⟩
  have hle := h.least (w ++ u) v (by rw [List.append_assoc, huv, List.append_assoc]) hp
  rw [List.length_append, List.length_append] at hle
  omega

/-- The first place is behind a stretch in which there is none. -/
theorem First.exists_behind (h : First P s rest) (htext : w ++ rest' = s ++ rest)
    (hno : ∀ u v, w ++ rest' = u ++ v → u.length < w.length → ¬ P u v) :
    ∃ t, s = w ++ t ∧ rest' = t ++ rest := by
  refine exists_append_of_length_le htext (Nat.le_of_not_lt fun hlt => ?_)
  exact hno s rest htext hlt h.holds

end SourceNotes.Text
