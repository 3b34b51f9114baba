/-
Reading octets in two parts.

A codec decides about a rune from its octets alone, so octets that are split
anywhere read like the whole: what the first part leaves over goes before the
second part.

* **`Codec.step_append`** — a rune or a fault that has been found stays found when
  more octets follow;
* **`Codec.pass_append`** — the runes of the first part, then those of what it
  left over and the second part;
* **`Codec.pass_append_of_fault`** — after a fault nothing counts;
* **`Codec.Decodes.append`** — octets that stand for two texts, one after another, stand
  for the texts one after another.
-/
import SourceNotes.Charset.Codec

namespace SourceNotes.Charset

/-- A reading that has come to a result, with `u` behind the octets read from. -/
def Step.before (u : Octets) : Step → Step
  | .rune c rest => .rune c (rest ++ u)
  | .short f => .short f
  | .bad f => .bad f
  | .pair c d rest => .pair c d (rest ++ u)

/-- Whether a reading waits for more octets. -/
def Step.Waits (x : Step) : Prop := ∃ f, x = .short f

theorem not_waits_rune (c : Char) (rest : Octets) : ¬ (Step.rune c rest).Waits := by
  rintro ⟨f, h⟩
  cases h

theorem not_waits_pair (c d : Char) (rest : Octets) : ¬ (Step.pair c d rest).Waits := by
  rintro ⟨f, h⟩
  cases h

theorem not_waits_bad (f : Fault) : ¬ (Step.bad f).Waits := by
  rintro ⟨g, h⟩
  cases h

theorem utf8Two_append {b : UInt8} {s : Octets} (h : ¬ (utf8Two b s).Waits) (u : Octets) :
    utf8Two b (s ++ u) = (utf8Two b s).before u := by
  rcases s with _ | ⟨c, s⟩
  · exact absurd ⟨_, rfl⟩ h
  · simp only [List.cons_append, utf8Two]
    split <;> rfl

theorem utf8Three_append {b : UInt8} {s : Octets} (h : ¬ (utf8Three b s).Waits) (u : Octets) :
    utf8Three b (s ++ u) = (utf8Three b s).before u := by
  rcases s with _ | ⟨c, _ | ⟨d, s⟩⟩
  · exact absurd ⟨_, rfl⟩ h
  · -- The second octet alone is decisive, unless it waits for the third.
    simp only [utf8Three] at h ⊢
    split at h
    · exact absurd ⟨_, rfl⟩ h
    · split at h
      · exact absurd ⟨_, rfl⟩ h
      · next h2 h3 =>
        rw [if_neg h2, if_neg h3]
        rcases u with _ | ⟨d, u⟩
        · simp [h2, h3, Step.before]
        · simp [h2, Step.before]
  · simp only [List.cons_append, utf8Three]
    split <;> rfl

theorem utf8Four_append {b : UInt8} {s : Octets} (h : ¬ (utf8Four b s).Waits) (u : Octets) :
    utf8Four b (s ++ u) = (utf8Four b s).before u := by
  -- With an octet missing there is a result only where one of the others is at fault.
  rcases s with _ | ⟨c, _ | ⟨d, _ | ⟨e, s⟩⟩⟩
  · exact absurd ⟨_, rfl⟩ h
  · simp only [utf8Four] at h ⊢
    split at h
    · exact absurd ⟨_, rfl⟩ h
    · next h2 =>
      rw [if_neg h2]
      rcases u with _ | ⟨d, _ | ⟨e, u⟩⟩ <;> simp [h2, Step.before]
  · simp only [utf8Four] at h ⊢
    split at h
    · exact absurd ⟨_, rfl⟩ h
    · next h2 =>
      rw [if_neg h2]
      rcases u with _ | ⟨e, u⟩
      · simp [h2, Step.before]
      · simp only [Bool.and_eq_true, not_and] at h2
        simp only [List.cons_append, List.nil_append, Step.before]
        rw [if_neg (by simpa using fun h => by simp [h2 h])]
  · simp only [List.cons_append, utf8Four]
    split <;> rfl

theorem utf8Step_append {b : UInt8} {s : Octets} (h : ¬ (utf8Step b s).Waits) (u : Octets) :
    utf8Step b (s ++ u) = (utf8Step b s).before u := by
  unfold utf8Step at h ⊢
  by_cases h1 : b < 0x80
  · simp only [h1, if_true, Step.before]
  by_cases h2 : b < 0xC2
  · simp only [h1, h2, if_true, if_false, Step.before]
  by_cases h3 : b < 0xE0
  · simp only [h1, h2, h3, if_true, if_false] at h ⊢
    exact utf8Two_append h u
  by_cases h4 : b < 0xF0
  · simp only [h1, h2, h3, h4, if_true, if_false] at h ⊢
    exact utf8Three_append h u
  by_cases h5 : b < 0xF5
  · simp only [h1, h2, h3, h4, h5, if_true, if_false] at h ⊢
    exact utf8Four_append h u
  · simp only [h1, h2, h3, h4, h5, if_false, Step.before]

theorem utf16Step_append {order : ByteOrder} {a : UInt8} {s : Octets}
    (h : ¬ (utf16Step order a s).Waits) (u : Octets) :
    utf16Step order a (s ++ u) = (utf16Step order a s).before u := by
  rcases s with _ | ⟨b, s⟩
  · exact absurd ⟨_, rfl⟩ h
  · simp only [List.cons_append, utf16Step] at h ⊢
    split
    · rfl
    · split
      · rcases s with _ | ⟨c, _ | ⟨d, s⟩⟩
        · simp_all [Step.Waits]
        · simp_all [Step.Waits]
        · simp only [List.cons_append]
          split <;> rfl
      · rfl

theorem utf32Step_append {order : ByteOrder} {a : UInt8} {s : Octets}
    (h : ¬ (utf32Step order a s).Waits) (u : Octets) :
    utf32Step order a (s ++ u) = (utf32Step order a s).before u := by
  rcases s with _ | ⟨b, _ | ⟨c, _ | ⟨d, s⟩⟩⟩
  · exact absurd ⟨_, rfl⟩ h
  · exact absurd ⟨_, rfl⟩ h
  · exact absurd ⟨_, rfl⟩ h
  · simp only [List.cons_append, utf32Step]
    split
    · rfl
    · split <;> rfl

theorem Table.readOn_append {t : Table} {lead s : Octets} (h : ¬ (t.readOn lead s).Waits)
    (u : Octets) : t.readOn lead (s ++ u) = (t.readOn lead s).before u := by
  induction s generalizing lead with
  | nil => exact absurd ⟨_, rfl⟩ h
  | cons b s ih =>
    rw [List.cons_append]
    unfold Table.readOn at h ⊢
    -- A code that is found ends with `b`; a longer one is read on.
    cases hcode : t.code? lead b with
    | some code =>
      obtain ⟨c, _ | d⟩ := code <;> rfl
    | none =>
      rw [hcode] at h
      dsimp only at h ⊢
      split
      · next hlead =>
        rw [if_pos hlead] at h
        exact ih h
      · rfl

/-- What has been found at the front of some octets does not depend on what follows
them. -/
theorem Codec.step_append {k : Codec} {b : UInt8} {s : Octets} (h : ¬ (k.step b s).Waits)
    (u : Octets) : k.step b (s ++ u) = (k.step b s).before u := by
  cases k with
  | utf8 => exact utf8Step_append h u
  | utf16 order => exact utf16Step_append h u
  | utf32 order => exact utf32Step_append h u
  | ascii => simp only [Codec.step]; split <;> rfl
  | latin1 => rfl
  | latin9 => rfl
  | windows1252 =>
    simp only [Codec.step, windows1252Step]
    split
    · rfl
    · split <;> rfl
  | table t => exact Table.readOn_append h u

theorem Codec.read_append {k : Codec} {b : UInt8} {s t : Octets} {x : Text}
    (h : (k.step b s).read? = some (x, t)) (u : Octets) :
    (k.step b (s ++ u)).read? = some (x, t ++ u) := by
  cases hstep : k.step b s with
  | rune c rest =>
    rw [hstep] at h
    cases h
    rw [k.step_append (by rw [hstep]; exact not_waits_rune c t), hstep]
    rfl
  | pair c d rest =>
    rw [hstep] at h
    cases h
    rw [k.step_append (by rw [hstep]; exact not_waits_pair c d t), hstep]
    rfl
  | short f =>
    rw [hstep] at h
    cases h
  | bad f =>
    rw [hstep] at h
    cases h

/-- Octets in two parts: what the first part leaves over is read with the second. -/
theorem Codec.pass_append (k : Codec) (final : Bool) {s : Octets} {runes : Text} {rest : Octets}
    (h : k.pass false s = ⟨runes, rest, none⟩) (u : Octets) :
    k.pass final (s ++ u) =
      { k.pass final (rest ++ u) with runes := runes ++ (k.pass final (rest ++ u)).runes } := by
  -- The first part is read up to where it waits; up to there the whole reads alike.
  induction s using Codec.readInduction k generalizing runes with
  | nil =>
    rw [Codec.pass] at h
    cases h
    rfl
  | read b s x t hread ih =>
    rw [Codec.pass_of_read false hread, Pass.mk.injEq] at h
    obtain ⟨rfl, rfl, hf⟩ := h
    have hp : k.pass false t = ⟨(k.pass false t).runes, (k.pass false t).rest, none⟩ := by
      rw [← hf]
    rw [List.cons_append, Codec.pass_of_read final (Codec.read_append hread u), ih hp,
      List.append_assoc]
  | short b s f hstep =>
    rw [Codec.pass_of_short false hstep] at h
    cases h
    rfl
  | bad b s f hstep =>
    rw [Codec.pass_of_bad false hstep] at h
    cases h

/-- After a fault the octets that follow do not matter. -/
theorem Codec.pass_append_of_fault (k : Codec) (final : Bool) {s : Octets} {runes : Text}
    {rest : Octets} {f : Fault} (h : k.pass false s = ⟨runes, rest, some f⟩) (u : Octets) :
    k.pass final (s ++ u) = ⟨runes, rest ++ u, some f⟩ := by
  induction s using Codec.readInduction k generalizing runes with
  | nil =>
    rw [Codec.pass] at h
    cases h
  | read b s x t hread ih =>
    rw [Codec.pass_of_read false hread, Pass.mk.injEq] at h
    obtain ⟨rfl, rfl, hf⟩ := h
    have hp : k.pass false t = ⟨(k.pass false t).runes, (k.pass false t).rest, some f⟩ := by
      rw [← hf]
    rw [List.cons_append, Codec.pass_of_read final (Codec.read_append hread u), ih hp]
  | short b s f' hstep =>
    rw [Codec.pass_of_short false hstep] at h
    cases h
  | bad b s f' hstep =>
    rw [Codec.pass_of_bad false hstep] at h
    cases h
    have hnext := k.step_append (u := u) (by rw [hstep]; exact not_waits_bad f)
    rw [hstep] at hnext
    exact Codec.pass_of_bad final hnext

/-! ### Octets that stand for a text -/

/-- The octets stand for the text, all of them. -/
def Codec.Decodes (k : Codec) (octets : Octets) (text : Text) : Prop :=
  (k.pass true octets).runes = text ∧ (k.pass true octets).fault = none

theorem decodes_of_ascii {octets : Octets} (h : ∀ b ∈ octets, b < 0x80) :
    Codec.utf8.Decodes octets (octets.map fun b => Char.ofNat b.toNat) := by
  rw [Codec.Decodes, Codec.pass_utf8_of_ascii true h]
  exact ⟨rfl, rfl⟩

/-- Complete octets without a fault leave nothing over, and read the same if more may follow. -/
theorem Codec.pass_false_of_pass_true {k : Codec} {s : Octets} {runes : Text} {rest : Octets}
    (h : k.pass true s = ⟨runes, rest, none⟩) : k.pass false s = ⟨runes, [], none⟩ := by
  induction s using Codec.readInduction k generalizing runes with
  | nil =>
    rw [Codec.pass] at h ⊢
    cases h
    rfl
  | read b s x t hread ih =>
    rw [Codec.pass_of_read true hread, Pass.mk.injEq] at h
    obtain ⟨rfl, rfl, hf⟩ := h
    have hp : k.pass true t = ⟨(k.pass true t).runes, (k.pass true t).rest, none⟩ := by
      rw [← hf]
    rw [Codec.pass_of_read false hread, ih hp]
  | short b s f hstep =>
    rw [Codec.pass_of_short true hstep] at h
    cases h
  | bad b s f hstep =>
    rw [Codec.pass_of_bad true hstep] at h
    cases h

theorem Codec.Decodes.append {k : Codec} {s u : Octets} {runes runes' : Text}
    (h : k.Decodes s runes) (h' : k.Decodes u runes') : k.Decodes (s ++ u) (runes ++ runes') := by
  obtain ⟨rfl, hfault⟩ := h
  obtain ⟨rfl, hfault'⟩ := h'
  have hpass : k.pass true s = ⟨(k.pass true s).runes, (k.pass true s).rest, none⟩ := by
    rw [← hfault]
  rw [Codec.Decodes, Codec.pass_append k true (Codec.pass_false_of_pass_true hpass),
    List.nil_append]
  exact ⟨rfl, hfault'⟩

end SourceNotes.Charset
