/-
The reading head of a scan.

A scan moves a head over the text of a reader. The head also knows whether only
blanks precede it on its line. Everything a scan does is made of two moves:
`Head.look` shows what comes next, `Head.take` moves over it. `Head.run` repeats
a decision, each time moving over some runes, until the decision is to end; it
comes to an end because a move always takes at least one rune.

* **`Peeks`** — computations that leave all remaining runes in place;
* **`run`** — repeated decisions, with the text moved over;
* **`remaining_run_le`**, **`remaining_run_lt`** — a run brings the head nearer to
  the end.
-/
import SourceNotes.Reader

namespace SourceNotes

/-- Why a scan stops. -/
inductive Halt where
  /-- The text is at its end. -/
  | endOfText
  /-- The reader has no answer. -/
  | failed (error : ReadError)
  deriving DecidableEq, Repr

/-- A place in the text of a reader. -/
structure Head where
  reader : Reader
  /-- Only blanks precede the head on its line. -/
  atLineStart : Bool := true

/-- A computation that reads at a head and may move it. -/
abbrev Scan := EStateM Halt Head

namespace Head

/-- A bound on the number of runes still to come. -/
def remaining (h : Head) : Nat := h.reader.remaining

/-- Whether only blanks precede the place after `s`, if the answer before `s` is `b`. -/
def lineStartAfter (b : Bool) (s : Text) : Bool :=
  s.foldl (fun b c => if c = '\n' then true else b && Text.isBlank c) b

/-- Lets the reader answer. -/
def ask {α : Type} (m : Reading α) : Scan α := fun h =>
  match m h.reader with
  | .ok a r => .ok a { h with reader := r }
  | .error e r => .error (.failed e) { h with reader := r }

/-- The next `n` runes, or as many as there are. -/
def look (n : Nat) : Scan Text := ask (Reader.look n)

/-- Whether `s` comes next. -/
def sees (s : Text) : Scan Bool := do return (← look s.length) == s

/-- Moves over `n` runes, or as many as there are; there has to be one. -/
def take (n : Nat) : Scan Text := fun h =>
  match look n h with
  | .ok [] h => .error .endOfText h
  | .ok (c :: s) h =>
    .ok (c :: s)
      { reader := h.reader.consume (c :: s).length
        atLineStart := lineStartAfter h.atLineStart (c :: s) }
  | .error e h => .error e h

/-- A computation that looks and does not move. -/
def Peeks {α : Type} (m : Scan α) : Prop := ∀ h, (stateOf (m h)).remaining ≤ h.remaining

theorem peeks_pure {α : Type} (a : α) : Peeks (pure a) := fun _ => Nat.le_refl _

theorem peeks_bind {α β : Type} {m : Scan α} {f : α → Scan β} (hm : Peeks m)
    (hf : ∀ a, Peeks (f a)) : Peeks (m >>= f) := by
  intro h
  have h₁ := hm h
  show (stateOf (EStateM.bind m f h)).remaining ≤ h.remaining
  unfold EStateM.bind
  split
  · next a h' heq => rw [heq] at h₁; exact Nat.le_trans (hf a h') h₁
  · next e h' heq => rw [heq] at h₁; exact h₁

theorem peeks_ask {α : Type} {m : Reading α}
    (hm : ∀ r, (stateOf (m r)).remaining ≤ r.remaining) : Peeks (ask m) := by
  intro h
  have := hm h.reader
  unfold ask
  split <;> rename_i heq <;> rw [heq] at this <;> exact this

theorem peeks_look (n : Nat) : Peeks (look n) := peeks_ask (Reader.remaining_look_le n)

theorem peeks_sees (s : Text) : Peeks (sees s) :=
  peeks_bind (peeks_look _) fun _ => peeks_pure _

theorem peeks_get : Peeks (get : Scan Head) := fun _ => Nat.le_refl _

theorem peeks_foldlM {α β : Type} {f : β → α → Scan β} (hf : ∀ b a, Peeks (f b a)) (l : List α)
    (b : β) : Peeks (l.foldlM f b) := by
  induction l generalizing b with
  | nil => exact peeks_pure b
  | cons a l ih => exact peeks_bind (hf b a) ih

/-- Moving takes a rune at least. -/
theorem remaining_take_lt {n : Nat} {s : Text} {h h' : Head} (ht : take n h = .ok s h') :
    h'.remaining < h.remaining := by
  have hle := peeks_look n h
  unfold take at ht
  split at ht
  · cases ht
  · next c s h₁ heq =>
    cases ht
    rw [heq] at hle
    have hahead : c :: s = h₁.reader.ahead.take n := by
      unfold look ask at heq
      split at heq
      · next hr => cases heq; exact Reader.ahead_of_look hr
      · cases heq
    have hlen : (h₁.reader.ahead.take (c :: s).length).length = (c :: s).length := by
      rw [hahead]; simp only [List.length_take]; omega
    have hcons := h₁.reader.remaining_consume (c :: s).length
    simp only [remaining, stateOf] at hle ⊢
    simp only [List.length_cons] at hlen hcons ⊢
    omega
  · cases ht

theorem remaining_take_le (n : Nat) (h : Head) :
    (stateOf (take n h)).remaining ≤ h.remaining := by
  cases ht : take n h with
  | ok s h' => exact Nat.le_of_lt (remaining_take_lt ht)
  | error e h' =>
    have hle := peeks_look n h
    unfold take at ht
    split at ht <;> rename_i heq <;> cases ht <;> rw [heq] at hle <;> exact hle

/-- What to do at a place: end here, move over a last stretch and end, or move
over a stretch and decide again. -/
inductive Decision (α β : Type) where
  | stop (b : β)
  | last (n : Nat) (b : β)
  | more (n : Nat) (a : α)

/-- Repeats a decision. `taken` is what the run has moved over, last rune first;
the answer has all of it in order. -/
def run {α β : Type} (choose : α → Scan (Decision α β)) (hc : ∀ a, Peeks (choose a)) (a : α)
    (taken : Text) (h : Head) : EStateM.Result Halt Head (Text × β) :=
  match hd : choose a h with
  | .error e h => .error e h
  | .ok (.stop b) h => .ok (taken.reverse, b) h
  | .ok (.last n b) h =>
    match take n h with
    | .error e h => .error e h
    | .ok s h => .ok ((s.reverse ++ taken).reverse, b) h
  | .ok (.more n next) h₁ =>
    match ht : take n h₁ with
    | .error e h => .error e h
    | .ok s h₂ =>
      have : h₂.remaining < h.remaining := by
        have := hc a h
        rw [hd] at this
        exact Nat.lt_of_lt_of_le (remaining_take_lt ht) this
      run choose hc next (s.reverse ++ taken) h₂
termination_by h.remaining

section

variable {α β : Type} {choose : α → Scan (Decision α β)} {hc : ∀ a, Peeks (choose a)} {a a' : α}
  {b : β} {taken : Text} {n : Nat} {h h' : Head}

theorem run_of_error {e : Halt} (hd : choose a h = .error e h') :
    run choose hc a taken h = .error e h' := by
  rw [run]
  split <;> simp_all

theorem run_of_stop (hd : choose a h = .ok (.stop b) h') :
    run choose hc a taken h = .ok (taken.reverse, b) h' := by
  rw [run]
  split <;> simp_all

theorem run_of_last (hd : choose a h = .ok (.last n b) h') :
    run choose hc a taken h =
      match take n h' with
      | .error e h => .error e h
      | .ok s h => .ok ((s.reverse ++ taken).reverse, b) h := by
  rw [run]
  split <;> simp_all

theorem run_of_more (hd : choose a h = .ok (.more n a') h') :
    run choose hc a taken h =
      match take n h' with
      | .error e h => .error e h
      | .ok s h => run choose hc a' (s.reverse ++ taken) h := by
  rw [run]
  split
  all_goals rename_i heq; rw [hd] at heq; cases heq
  split
  · next ht => rw [ht]
  · next s h₂ ht =>
    show run choose hc a' (s.reverse ++ taken) h₂ = _
    rw [ht]

end

theorem remaining_run_le {α β : Type} (choose : α → Scan (Decision α β))
    (hc : ∀ a, Peeks (choose a)) (a : α) (taken : Text) (h : Head) :
    (stateOf (run choose hc a taken h)).remaining ≤ h.remaining := by
  fun_induction run choose hc a taken h with
  | case1 a taken h e h' hd => have := hc a h; rwa [hd] at this
  | case2 a taken h b h' hd => have := hc a h; rwa [hd] at this
  | case3 a taken h n b h' hd e h'' ht =>
    have h₁ := hc a h
    have h₂ := remaining_take_le n h'
    rw [hd] at h₁; rw [ht] at h₂
    exact Nat.le_trans h₂ h₁
  | case4 a taken h n b h' hd s h'' ht =>
    have h₁ := hc a h
    have h₂ := remaining_take_le n h'
    rw [hd] at h₁; rw [ht] at h₂
    exact Nat.le_trans h₂ h₁
  | case5 a taken h n a' h' hd e h'' ht =>
    have h₁ := hc a h
    have h₂ := remaining_take_le n h'
    rw [hd] at h₁; rw [ht] at h₂
    exact Nat.le_trans h₂ h₁
  | case6 a taken h n a' h' hd s h'' ht this ih => exact Nat.le_trans ih (Nat.le_of_lt this)

/-- A run of decisions that never end in place takes a rune at least. -/
theorem remaining_run_lt {α β : Type} {choose : α → Scan (Decision α β)}
    {hc : ∀ a, Peeks (choose a)} {a : α} {taken : Text} {h h' : Head} {out : Text × β}
    (hmove : ∀ a h b h', choose a h ≠ .ok (.stop b) h')
    (hr : run choose hc a taken h = .ok out h') : h'.remaining < h.remaining := by
  fun_induction run choose hc a taken h with
  | case1 => cases hr
  | case2 a taken h b h' hd => exact absurd hd (hmove a h b h')
  | case3 => cases hr
  | case4 a taken h n b h₁ hd s h₂ ht =>
    cases hr
    have := hc a h
    rw [hd] at this
    exact Nat.lt_of_lt_of_le (remaining_take_lt ht) this
  | case5 => cases hr
  | case6 a taken h n a' h₁ hd s h₂ ht this ih => exact Nat.lt_trans (ih hr) this

end Head

end SourceNotes
