/-
Results and faults.

What is said of a reading is said of both its ends: of the result if it comes to one, and of the
fault if it does not. Both carry over from the steps of a reading to the whole of it.

* **`EndsIn`** — what holds of the result or of the fault of a reading;
* **`Leads`** — the same for a reading that goes through states.
-/
import SourceNotes.Yaml.Fault

namespace SourceNotes.Yaml

/-- Whether a reading comes to a result that is in `P`, or else to a fault that is in `Q`. -/
def EndsIn {α : Type} (P : α → Prop) (Q : Fault → Prop) : Except Fault α → Prop
  | .ok a => P a
  | .error f => Q f

namespace EndsIn

variable {α β : Type} {P P' : α → Prop} {R : β → Prop} {Q Q' : Fault → Prop} {x : Except Fault α}

theorem imp (h : EndsIn P Q x) (hP : ∀ a, P a → P' a) (hQ : ∀ f, Q f → Q' f) : EndsIn P' Q' x := by
  cases x with
  | ok a => exact hP a h
  | error f => exact hQ f h

theorem bind {k : α → Except Fault β} (h : EndsIn P Q x) (hk : ∀ a, P a → EndsIn R Q (k a)) :
    EndsIn R Q (x >>= k) := by
  cases x with
  | ok a => exact hk a h
  | error f => exact h

theorem ite {c : Prop} [Decidable c] {y : Except Fault α} (hx : c → EndsIn P Q x)
    (hy : ¬ c → EndsIn P Q y) : EndsIn P Q (if c then x else y) := by
  split
  · next hc => exact hx hc
  · next hc => exact hy hc

/-- A check that is made or left out before what follows. -/
theorem guard {c : Prop} [Decidable c] {x : Except Fault Unit} {k : Unit → Except Fault β}
    (hx : EndsIn (fun _ => True) Q x) (hk : EndsIn R Q (k ())) :
    EndsIn R Q (if c then x >>= k else k ()) := by
  split
  · exact hx.bind fun _ _ => hk
  · exact hk

theorem map {g : α → β} (h : EndsIn P Q x) (hg : ∀ a, P a → R (g a)) : EndsIn R Q (x.map g) := by
  cases x with
  | ok a => exact hg a h
  | error f => exact h

theorem mapError {g : Fault → Fault} (h : EndsIn P Q x) (hg : ∀ f, Q f → Q' (g f)) :
    EndsIn P Q' (x.mapError g) := by
  cases x with
  | ok a => exact h
  | error f => exact hg f h

end EndsIn

/-! ### Readings with a state -/

/-- Whether a reading from a state in `pre` comes to a result and a state that are in `post`, or
else to a fault in `Q`. -/
def Leads {σ α : Type} (Q : Fault → Prop) (pre : σ → Prop) (x : StateT σ (Except Fault) α)
    (post : α → σ → Prop) : Prop :=
  ∀ s, pre s → EndsIn (fun found => post found.1 found.2) Q (x.run s)

namespace Leads

variable {σ α β : Type} {Q : Fault → Prop} {pre pre' : σ → Prop} {post post' : α → σ → Prop}
  {goal : β → σ → Prop} {x y : StateT σ (Except Fault) α}

theorem imp (h : Leads Q pre x post) (hpre : ∀ s, pre' s → pre s)
    (hpost : ∀ a s, post a s → post' a s) : Leads Q pre' x post' :=
  fun s hs => (h s (hpre s hs)).imp (fun found => hpost found.1 found.2) fun _ hf => hf

/-- What is known of a state before a reading and does not depend on it. -/
theorem given {p : Prop} (h : p → Leads Q pre x post) : Leads Q (fun s => pre s ∧ p) x post :=
  fun s hs => h hs.2 s hs.1

theorem bind {k : α → StateT σ (Except Fault) β} (h : Leads Q pre x post)
    (hk : ∀ a, Leads Q (post a) (k a) goal) : Leads Q pre (x >>= k) goal :=
  fun s hs => (h s hs).bind fun found hfound => hk found.1 found.2 hfound

theorem map {g : α → β} (h : Leads Q pre x post) (hg : ∀ a s, post a s → goal (g a) s) :
    Leads Q pre (g <$> x) goal :=
  fun s hs => (h s hs).bind fun found hfound => hg found.1 found.2 hfound

theorem pure {a : α} (h : ∀ s, pre s → post a s) : Leads Q pre (Pure.pure a) post := h

theorem throw {f : Fault} (hf : Q f) :
    Leads Q pre (MonadExcept.throw f : StateT σ (Except Fault) α) post :=
  fun _ _ => hf

theorem get : Leads Q pre (MonadState.get : StateT σ (Except Fault) σ) (fun a s => pre s ∧ a = s) :=
  fun _ hs => ⟨hs, rfl⟩

/-- A state that is looked at is known from then on. -/
theorem read {k : σ → StateT σ (Except Fault) β}
    (h : ∀ s, pre s → Leads Q (fun s' => s' = s) (k s) goal) :
    Leads Q pre (MonadState.get >>= k) goal :=
  fun s hs => h s hs s rfl

theorem modify {g : σ → σ} {P : σ → Prop} (h : ∀ s, pre s → P (g s)) :
    Leads Q pre (modify g : StateT σ (Except Fault) Unit) (fun _ => P) := h

theorem lift {x : Except Fault α} (h : ∀ s, pre s → EndsIn (fun a => post a s) Q x) :
    Leads Q pre (liftM x : StateT σ (Except Fault) α) post :=
  fun s hs => (h s hs).bind fun _ ha => ha

theorem ite {c : Prop} [Decidable c] (hx : c → Leads Q pre x post) (hy : ¬ c → Leads Q pre y post) :
    Leads Q pre (if c then x else y) post := by
  split
  · next hc => exact hx hc
  · next hc => exact hy hc

/-- A fault that is thrown under a condition before what follows. -/
theorem refuse {c : Prop} [Decidable c] {f : Fault} {k : Unit → StateT σ (Except Fault) β}
    (hf : c → Q f) (hk : ¬ c → Leads Q pre (k ()) goal) :
    Leads Q pre (if c then MonadExcept.throw f >>= k else k ()) goal :=
  .ite (fun hc _ _ => hf hc) hk

/-! ### Readings of lists -/

variable {l : List α}

theorem mapM {f : α → StateT σ (Except Fault) β} {P : β → Prop}
    (h : ∀ a ∈ l, Leads Q pre (f a) fun b s => pre s ∧ P b) :
    Leads Q pre (l.mapM f) fun bs s => pre s ∧ ∀ b ∈ bs, P b := by
  induction l with
  | nil => exact .pure fun s hs => ⟨hs, by simp⟩
  | cons a l ih =>
    rw [List.forall_mem_cons] at h
    rw [List.mapM_cons]
    refine h.1.bind fun b s hs => ?_
    exact (ih h.2 s hs.1).bind fun found hfound =>
      ⟨hfound.1, List.forall_mem_cons.2 ⟨hs.2, hfound.2⟩⟩

theorem forM {f : α → StateT σ (Except Fault) Unit} (h : ∀ a ∈ l, Leads Q pre (f a) fun _ => pre) :
    Leads Q pre (l.forM f) fun _ => pre := by
  induction l with
  | nil => exact .pure fun _ hs => hs
  | cons a l ih =>
    rw [List.forall_mem_cons] at h
    exact h.1.bind fun _ => ih h.2

/-- A loop whose steps all go on. -/
theorem forIn {f : α → PUnit → StateT σ (Except Fault) (ForInStep PUnit)}
    (h : ∀ a ∈ l, Leads Q pre (f a ⟨⟩) fun next s => pre s ∧ next = .yield ⟨⟩) :
    Leads Q pre (forIn l ⟨⟩ f) fun _ => pre := by
  induction l with
  | nil => exact .pure fun _ hs => hs
  | cons a l ih =>
    rw [List.forall_mem_cons] at h
    rw [List.forIn_cons]
    refine h.1.bind fun next s hs => ?_
    rw [hs.2]
    exact ih h.2 s hs.1

end Leads

end SourceNotes.Yaml
