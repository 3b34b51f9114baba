/-
A head at a place in a text.

A scan of octets is a scan of the text that they stand for, up to a fault if there is
one (`Source`). A head is then at a place in that text, between what is before it and
what is after it (`Head.At`), and a computation that leaves it there answers from these
two alone (`Shows`), one that moves it gets to another place (`Reaches`). There is no
answer if the fault is met with nothing in front of it, or if the reader is not able to
look so far ahead or to take chunks so large (`Fails`); of these only the last passes
through a scan (`Source.Halts`).

* **`Head.Shows.bind`**, **`Head.shows_look`**, **`Head.shows_gate`** — how what a
  computation shows is put together;
* **`Head.Reaches.andThen`** — going on from a place that is reached;
* **`Head.reaches_take`**, **`Head.fails_take`** — moving over runes, and moving at the
  end.
-/
import SourceNotes.Proofs.Comment.Segmentation
import SourceNotes.Proofs.Reader.Delivers

namespace SourceNotes

open Charset Text

/-- What a scan goes through besides the text: how the octets are read and the fault that
they end in. -/
structure Source where
  charsetName : Text
  maxPeek : Nat
  chunkSize : Nat
  fault : Option Fault
  /-- The reader has an answer to all that the scan asks for. -/
  able : Prop

/-- What a scan of some octets goes through. -/
def Source.ofOctets (k : Codec) (octets : Octets) (charsetName : Text) (maxPeek chunkSize : Int)
    (able : Prop) : Source :=
  { charsetName, maxPeek := maxPeek.toNat, chunkSize := (max chunkSize 1).toNat
    fault := (k.pass true octets).fault, able }

/-- Whether undecodable octets cut the text short. -/
def Source.cut (σ : Source) : Bool := σ.fault.isSome

/-- A source from which no answer can be expected. -/
def Source.mute : Source :=
  { charsetName := [], maxPeek := 0, chunkSize := 1, fault := none, able := False }

/-- The scan may look `n` runes ahead. -/
def Source.Allows (σ : Source) (n : Nat) : Prop := σ.able → n ≤ σ.maxPeek

theorem Source.allows_mute (n : Nat) : Source.mute.Allows n := False.elim

/-- The reason that a scan stops for behind all of the text. -/
def Source.Ends (σ : Source) (e : Halt) : Prop :=
  match σ.fault with
  | none => e = .endOfText
  | some f => ∃ line, e = .failed (.undecodable σ.charsetName f line)

/-- The scan is over: at the end of a text without a fault, or for an error that ends scans. -/
def Source.Halts (σ : Source) : Halt → Prop
  | .endOfText => σ.fault = none
  | .failed e => e.endsScan = true

/-- What is known of the reason that a scan stops for, by what its reader is able to. -/
structure Source.Stops (σ : Source) (e : Halt) : Prop where
  ends : σ.able → σ.Ends e
  halts : σ.chunkSize ≤ Reader.maxChunk → σ.Halts e

theorem Source.Ends.halts {σ : Source} {e : Halt} (he : σ.Ends e) : σ.Halts e := by
  unfold Source.Ends at he
  split at he
  · next hfault =>
    subst he
    exact hfault
  · obtain ⟨line, rfl⟩ := he
    rfl

theorem Source.Ends.stops {σ : Source} {e : Halt} (he : σ.Ends e) : σ.Stops e :=
  ⟨fun _ => he, fun _ => he.halts⟩

namespace Head

/-- The head stands behind `before` and in front of `after`, or its reader cannot even show what
is after it. -/
structure At (σ : Source) (before after : Text) (h : Head) : Prop where
  view : h.reader.Delivers ⟨after, σ.fault⟩ ∨ ¬ σ.able ∧ h.reader.Blocked
  charsetName_eq : h.reader.charsetName = σ.charsetName
  maxPeek_eq : h.reader.maxPeek = σ.maxPeek
  chunkSize_eq : h.reader.chunkSize = σ.chunkSize
  position_eq : h.reader.position = Position.after {} before
  atLineStart_eq : h.atLineStart = lineStartAfter true before

/-- The computation stops at the head. If the reader is able to answer, this is because all of
the text is behind it. -/
def Fails (σ : Source) {α : Type} (m : Scan α) (h : Head) : Prop :=
  ∃ e h', m h = .error e h' ∧ σ.Stops e

/-- At every place the computation answers `v` and stays there. It may fail where the fault
comes next, or if the reader is not able to answer. -/
def Shows (σ : Source) {α : Type} (m : Scan α) (v : Text → Text → α) : Prop :=
  ∀ ⦃before after : Text⦄ ⦃h : Head⦄, h.At σ before after →
    (∃ h', m h = .ok (v before after) h' ∧ h'.At σ before after) ∨
      Fails σ m h ∧ (σ.able → after = [] ∧ σ.cut = true)

/-- From the head the computation answers `a` and gets to the place between `before` and `after`,
unless the reader is not able to answer. -/
def Reaches (σ : Source) {α : Type} (m : Scan α) (h : Head) (a : α) (before after : Text) : Prop :=
  (∃ h', m h = .ok a h' ∧ h'.At σ before after) ∨ Fails σ m h ∧ ¬ σ.able

variable {σ : Source} {α β : Type} {before after : Text} {h : Head}

/-- Decoding more octets leaves the head where it is. -/
theorem At.refill {r : Reader} (hat : h.At σ before after) (hdel : r.Delivers ⟨after, σ.fault⟩)
    (hsame : Reader.SamePlace h.reader r) :
    ({ h with reader := r } : Head).At σ before after where
  view := .inl hdel
  charsetName_eq := hsame.charsetName_eq.trans hat.charsetName_eq
  maxPeek_eq := hsame.maxPeek_eq.trans hat.maxPeek_eq
  chunkSize_eq := hsame.chunkSize_eq.trans hat.chunkSize_eq
  position_eq := hsame.position_eq.trans hat.position_eq
  atLineStart_eq := hat.atLineStart_eq

theorem bind_of_ok {m : Scan α} {f : α → Scan β} {a : α} {h' : Head} (hm : m h = .ok a h') :
    (m >>= f) h = f a h' := by
  show EStateM.bind m f h = _
  rw [EStateM.bind, hm]

theorem bind_of_error {m : Scan α} {f : α → Scan β} {e : Halt} {h' : Head}
    (hm : m h = .error e h') : (m >>= f) h = .error e h' := by
  show EStateM.bind m f h = _
  rw [EStateM.bind, hm]

theorem Fails.bind {m : Scan α} (hm : Fails σ m h) (f : α → Scan β) : Fails σ (m >>= f) h := by
  obtain ⟨e, h', hm, he⟩ := hm
  exact ⟨e, h', bind_of_error hm, he⟩

theorem fails_of_error {m : Scan α} {e : Halt} {h' : Head} (hable : ¬ σ.able)
    (hm : m h = .error e h') (hhalts : σ.chunkSize ≤ Reader.maxChunk → σ.Halts e) :
    Fails σ m h := ⟨e, h', hm, fun h => absurd h hable, hhalts⟩

/-- An error that is passed on. -/
theorem Fails.imp {m : Scan α} {m' : Scan β} {h' : Head} (hm : Fails σ m h)
    (herr : ∀ {e h₁}, m h = .error e h₁ → m' h' = .error e h₁) : Fails σ m' h' := by
  obtain ⟨e, h₁, hm, he⟩ := hm
  exact ⟨e, h₁, herr hm, he⟩

/-- What goes on from a place that is reached, and passes errors on. -/
theorem Reaches.andThen {m : Scan α} {m' : Scan β} {a : α} {b : β} {before' after' : Text}
    {h' : Head} (hm : Reaches σ m h a before after)
    (hok : ∀ {h₁}, m h = .ok a h₁ → h₁.At σ before after → Reaches σ m' h' b before' after')
    (herr : ∀ {e h₁}, m h = .error e h₁ → m' h' = .error e h₁) :
    Reaches σ m' h' b before' after' := by
  rcases hm with ⟨h₁, hm, hat⟩ | ⟨hfail, hable⟩
  · exact hok hm hat
  · exact .inr ⟨hfail.imp herr, hable⟩

/-! ### What computations show -/

theorem shows_pure (a : α) : Shows σ (pure a) fun _ _ => a := fun _ _ h hat => .inl ⟨h, rfl, hat⟩

theorem Shows.bind {m : Scan α} {v : Text → Text → α} {f : α → Scan β}
    {w : α → Text → Text → β} (hm : Shows σ m v) (hf : ∀ a, Shows σ (f a) (w a)) :
    Shows σ (m >>= f) fun before after => w (v before after) before after := by
  intro before after h hat
  rcases hm hat with ⟨h₁, hm, hat₁⟩ | ⟨hfail, hend⟩
  · rcases hf (v before after) hat₁ with ⟨h₂, hf, hat₂⟩ | ⟨⟨e, h₂, hf, he⟩, hend⟩
    · exact .inl ⟨h₂, (bind_of_ok hm).trans hf, hat₂⟩
    · exact .inr ⟨⟨e, h₂, (bind_of_ok hm).trans hf, he⟩, hend⟩
  · exact .inr ⟨hfail.bind f, hend⟩

/-- A computation that shows something reaches the place where it is, if no fault comes next. -/
theorem Shows.reaches {m : Scan α} {v : Text → Text → α} (hm : Shows σ m v)
    (hat : h.At σ before after) (hgoes : σ.cut = true → after ≠ []) :
    Reaches σ m h (v before after) before after := by
  rcases hm hat with hok | ⟨hfail, hend⟩
  · exact .inl hok
  · exact .inr ⟨hfail, fun hable => hgoes (hend hable).2 (hend hable).1⟩

theorem Shows.congr {m : Scan α} {v w : Text → Text → α} (hm : Shows σ m v)
    (heq : ∀ before after, v before after = w before after) : Shows σ m w := by
  intro before after h hat
  rw [← heq]
  exact hm hat

theorem Shows.ite {m m' : Scan α} {v v' : Text → Text → α} (b : Bool) (hm : Shows σ m v)
    (hm' : Shows σ m' v') :
    Shows σ (if b then m else m') fun before after =>
      if b then v before after else v' before after := by
  cases b
  · exact hm'
  · exact hm

theorem Shows.foldlM {f : β → α → Scan β} {w : Text → Text → β → α → β} {l : List α}
    (hf : ∀ b, ∀ a ∈ l, Shows σ (f b a) fun before after => w before after b a) (b : β) :
    Shows σ (l.foldlM f b) fun before after => l.foldl (w before after) b := by
  induction l generalizing b with
  | nil => exact shows_pure b
  | cons a l ih =>
    rw [List.foldlM_cons]
    exact (hf b a (List.mem_cons_self ..)).bind
      fun b => ih (fun b a ha => hf b a (List.mem_cons_of_mem _ ha)) b

/-- The gate of a block comment at a place. -/
theorem At.gateOpen_eq (hat : h.At σ before after) (rule : BlockRule) :
    rule.gateOpen h = rule.openAfter before := by
  rw [BlockRule.gateOpen, BlockRule.openAfter, hat.position_eq, hat.atLineStart_eq,
    lineStartAfter_eq, column_after]
  cases lastLine before <;> rfl

theorem shows_gate (rule : BlockRule) {m m' : Scan α} {v v' : Text → Text → α}
    (hm : Shows σ m v) (hm' : Shows σ m' v') :
    Shows σ (do if rule.gateOpen (← get) then m else m') fun before after =>
      if rule.openAfter before then v before after else v' before after := by
  intro before after h hat
  have hget : (get : Scan Head) h = .ok h h := rfl
  rw [Fails, bind_of_ok hget, hat.gateOpen_eq]
  exact Shows.ite (rule.openAfter before) hm hm' hat

/-- The line on which a place is. -/
theorem shows_line (f : Nat → α) :
    Shows σ (do return f (← get).reader.position.line) fun before _ =>
      f (1 + before.count '\n') := by
  intro before after h hat
  refine .inl ⟨h, ?_, hat⟩
  have hget : (get : Scan Head) h = .ok h h := rfl
  rw [bind_of_ok hget, hat.position_eq, Position.line_after]
  rfl

/-! ### Looking -/

/-- A look shows the runes that come next, or fails. -/
theorem At.look_eq {n : Nat} (hat : h.At σ before after) (hn : 0 < n) (hle : σ.Allows n) :
    (∃ h', look n h = .ok (after.take n) h' ∧ h'.At σ before after ∧
      h'.reader.Delivers ⟨after, σ.fault⟩ ∧
      h'.reader.ahead.take n = after.take n ∧ (after = [] → σ.cut = false)) ∨
    Fails σ (look n) h ∧ (σ.able → after = [] ∧ σ.cut = true) := by
  by_cases hlimit : n ≤ h.reader.maxPeek
  · rcases hat.view with hdel | ⟨hable, hblocked⟩
    · rcases hdel.fill n with ⟨r, hfill, hdel', hsame, hahead, hgoes⟩ |
        ⟨f, line, r, hfill, -, -, -, hout⟩
      · refine .inl ⟨{ h with reader := r }, ?_, hat.refill hdel' hsame, hdel', hahead, ?_⟩
        · rw [look, ask, Reader.look, if_neg (Nat.not_lt.2 hlimit), hfill, ← hahead]
        · intro hnil
          have hnone : σ.fault = none := hgoes hn hnil
          rw [Source.cut, hnone]
          rfl
      · -- The fault is what comes next only when no rune is left.
        obtain ⟨rfl, hfault⟩ := Outlook.mk.inj hout
        refine .inr ⟨⟨.failed (.undecodable σ.charsetName f line), { h with reader := r }, ?_, ?_⟩,
          fun _ => ⟨rfl, by rw [Source.cut, hfault]; rfl⟩⟩
        · rw [look, ask, Reader.look, if_neg (Nat.not_lt.2 hlimit), hfill, hat.charsetName_eq]
        · apply Source.Ends.stops
          rw [Source.Ends, hfault]
          exact ⟨line, rfl⟩
    · have hlook : look n h = .error (.failed (.chunkTooLarge h.reader.chunkSize)) h := by
        rw [look, ask, hblocked.look_eq hn hlimit]
      refine .inr ⟨fails_of_error hable hlook fun hchunk => ?_, fun h => absurd h hable⟩
      have := hblocked.maxChunk_lt
      rw [hat.chunkSize_eq] at this
      omega
  · -- A reader that is able to answer allows the look, so that this one is not.
    have hable : ¬ σ.able := fun h => hlimit (hat.maxPeek_eq ▸ hle h)
    have hlook : look n h = .error (.failed (.peekLimit n h.reader.maxPeek)) h := by
      rw [look, ask, Reader.look, if_pos (Nat.lt_of_not_le hlimit)]
    exact .inr ⟨fails_of_error hable hlook fun _ => rfl, fun h => absurd h hable⟩

theorem shows_look {n : Nat} (hn : 0 < n) (hle : σ.Allows n) :
    Shows σ (look n) fun _ after => after.take n := by
  intro before after h hat
  rcases hat.look_eq hn hle with ⟨h', hlook, hat', -⟩ | hfail
  · exact .inl ⟨h', hlook, hat'⟩
  · exact .inr hfail

/-- A look behind all of the text meets the fault. -/
theorem At.fails_look {n : Nat} (hat : h.At σ before []) (hcut : σ.cut = true) (hn : 0 < n)
    (hle : σ.Allows n) : Fails σ (look n) h := by
  rcases hat.look_eq hn hle with ⟨_, -, -, -, -, hgoes⟩ | ⟨hfail, -⟩
  · rw [hgoes rfl] at hcut
    cases hcut
  · exact hfail

theorem take_eq_iff (p s : Text) : s.take p.length = p ↔ startsWith p s = true := by
  rw [startsWith, List.isPrefixOf_iff_prefix, List.prefix_iff_eq_take]
  exact eq_comm

theorem shows_sees {s : Text} (hs : s ≠ []) (hle : σ.Allows s.length) :
    Shows σ (sees s) fun _ after => startsWith s after := by
  refine Shows.congr ((shows_look (List.length_pos_iff.2 hs) hle).bind fun t => shows_pure _) ?_
  intro _ after
  rw [Bool.eq_iff_iff, ← take_eq_iff, beq_iff_eq]

theorem ask_bind (m : Reading α) (f : α → Reading β) :
    ask (m >>= f) = ask m >>= fun a => ask (f a) := by
  funext h
  show ask (EStateM.bind m f) h = EStateM.bind (ask m) (fun a => ask (f a)) h
  unfold EStateM.bind ask
  dsimp only
  cases m h.reader <;> rfl

/-! ### Moving -/

/-- Moving over the runes that come next. -/
theorem reaches_take {u rest : Text} (hat : h.At σ before (u ++ rest)) (hu : u ≠ [])
    (hle : σ.Allows u.length) : Reaches σ (take u.length) h u (before ++ u) rest := by
  obtain ⟨c, s, rfl⟩ := List.exists_cons_of_ne_nil hu
  rcases hat.look_eq (List.length_pos_iff.2 hu) hle with
    ⟨h₁, hlook, hat₁, hdel, hahead, -⟩ | ⟨⟨e, h₁, hlook, he⟩, hend⟩
  · have hconsumed := hdel.consume hahead
    rw [List.drop_left' rfl] at hconsumed
    rw [List.take_left' rfl] at hlook hahead
    refine .inl ⟨_, by rw [take, hlook], ?_⟩
    -- The look has left as many runes ahead, and these are consumed.
    exact {
      view := .inl hconsumed
      charsetName_eq := hat₁.charsetName_eq
      maxPeek_eq := hat₁.maxPeek_eq
      chunkSize_eq := hat₁.chunkSize_eq
      position_eq := by
        rw [Reader.consume, hahead, Position.after_append, hat₁.position_eq]
      atLineStart_eq := by
        rw [hat₁.atLineStart_eq, lineStartAfter, lineStartAfter, lineStartAfter,
          List.foldl_append] }
  · refine .inr ⟨⟨e, h₁, by rw [take, hlook], he⟩, fun hable => ?_⟩
    cases (hend hable).1

/-- Moving behind all of the text stops the scan. -/
theorem fails_take {n : Nat} (hat : h.At σ before []) (hn : 0 < n) (hle : σ.Allows n) :
    Fails σ (take n) h := by
  rcases hat.look_eq hn hle with ⟨h', hlook, -, -, -, hgoes⟩ | ⟨⟨e, h', hlook, he⟩, -⟩
  · refine ⟨.endOfText, h', by rw [take, hlook, List.take_nil], ?_⟩
    have hnone : σ.fault = none := by simpa [Source.cut] using hgoes rfl
    apply Source.Ends.stops
    rw [Source.Ends, hnone]
  · exact ⟨e, h', by rw [take, hlook], he⟩

end Head

end SourceNotes
