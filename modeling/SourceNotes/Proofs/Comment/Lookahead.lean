/-
What the decisions of a scan depend on.

A scan by some rules looks for line ends and for a fixed set of texts, the marks of the
rules (`Rules.marks`). Two texts in front of which the same of these stand look the same to
it (`Rules.LooksSame`), and a text looks the same as a longer one if it is as long as every
mark (`looksSame_of_length`) or has a newline that no mark goes over
(`looksSame_of_newline`).

* **`winnerAt_congr`**, **`decideLine_congr`**, **`decideBlock_congr`**,
  **`decideString_congr`** — the decisions are the same where the same marks stand;
* **`Reads.congr`**, **`Opening.Closes.congr`** — so the same stretches are read, whatever
  comes behind.
-/
import SourceNotes.Proofs.Comment.Lines

namespace SourceNotes

open Head Text

/-! ### Texts that stand in front of a longer one -/

namespace Text

variable {p x t : Text}

/-- What stands in front of `x ++ t` stands in front of `x`, unless it goes on into `t`. -/
theorem startsWith_append (hover : ∀ q, p = x ++ q → startsWith q t = true → q = []) :
    startsWith p (x ++ t) = startsWith p x := by
  rw [Bool.eq_iff_iff]
  simp only [startsWith, List.isPrefixOf_iff_prefix] at hover ⊢
  constructor
  · rintro ⟨r, hr⟩
    rcases List.append_eq_append_iff.1 hr with ⟨q, hx, -⟩ | ⟨q, hp, ht⟩
    · exact ⟨q, hx.symm⟩
    · obtain rfl := hover q hp ⟨r, ht.symm⟩
      exact ⟨[], by rw [hp, List.append_nil, List.append_nil]⟩
  · intro h
    exact h.trans (List.prefix_append x t)

theorem startsWith_append_of_length (h : p.length ≤ x.length) (t : Text) :
    startsWith p (x ++ t) = startsWith p x := by
  refine startsWith_append fun q hq _ => ?_
  have hlen := congrArg List.length hq
  rw [List.length_append] at hlen
  exact List.eq_nil_of_length_eq_zero (by omega)

theorem startsWith_append_of_newline (hp : '\n' ∉ p) (hx : '\n' ∈ x) (t : Text) :
    startsWith p (x ++ t) = startsWith p x :=
  startsWith_append fun q hq _ => absurd (hq ▸ List.mem_append_left q hx) hp

/-- A text that ends, or a line that does. -/
def AtBreak (t : Text) : Prop := t = [] ∨ t.head? = some '\n'

theorem startsWith_append_of_atBreak (hp : '\n' ∉ p) (ht : AtBreak t) (x : Text) :
    startsWith p (x ++ t) = startsWith p x := by
  refine startsWith_append fun q hq hqt => ?_
  have hfront : q <+: t := List.isPrefixOf_iff_prefix.1 hqt
  rcases ht with rfl | ht
  · exact List.prefix_nil.1 hfront
  · cases q with
    | nil => rfl
    | cons c q =>
      -- The text would go on with the newline.
      rw [List.head?_eq_some_iff] at ht
      obtain ⟨t', rfl⟩ := ht
      obtain ⟨rfl, -⟩ := List.cons_prefix_cons.1 hfront
      exact absurd (hq ▸ List.mem_append_right x (List.mem_cons_self ..)) hp

end Text

/-! ### Line ends -/

theorem endsLine_append_of_length {x : Text} (h : 2 ≤ x.length) (t : Text) :
    endsLine (x ++ t) = endsLine x := by
  have hempty : (x ++ t).isEmpty = x.isEmpty := by
    cases x with
    | nil => simp at h
    | cons c x => rfl
  have hone : startsWith ['\n'] (x ++ t) = startsWith ['\n'] x :=
    startsWith_append_of_length (Nat.le_trans (Nat.le_succ 1) h) t
  have hboth : startsWith ['\r', '\n'] (x ++ t) = startsWith ['\r', '\n'] x :=
    startsWith_append_of_length (p := ['\r', '\n']) h t
  rw [endsLine, endsLine, hempty, hone, hboth]

theorem endsLine_append_of_newline {x : Text} (h : '\n' ∈ x) (t : Text) :
    endsLine (x ++ t) = endsLine x := by
  rcases x with _ | ⟨c, _ | ⟨d, x⟩⟩
  · cases h
  · obtain rfl := List.mem_singleton.1 h
    rfl
  · exact endsLine_append_of_length (Nat.le_add_left 2 _) t

theorem endsLine_cons_of_ne {c : Char} (hc : c ≠ '\r') (s : Text) :
    endsLine (c :: s) = (c == '\n') := by
  have hr : ('\r' == c) = false := beq_false_of_ne (Ne.symm hc)
  simp [endsLine, startsWith, List.isPrefixOf_cons_cons, hr, BEq.comm]

theorem endsLine_of_atBreak {t : Text} (h : AtBreak t) : endsLine t = true := by
  rcases h with rfl | h
  · rfl
  · obtain ⟨s, rfl⟩ := List.head?_eq_some_iff.1 h
    rfl

/-- Without carriage returns a line ends where the text does or a newline comes. -/
theorem atBreak_of_endsLine {t : Text} (hr : '\r' ∉ t) (h : endsLine t = true) : AtBreak t := by
  cases t with
  | nil => exact .inl rfl
  | cons c s =>
    rw [List.mem_cons, not_or] at hr
    rw [endsLine_cons_of_ne (Ne.symm hr.1), beq_iff_eq] at h
    exact .inr (by rw [h]; rfl)

theorem endsLine_append_of_atBreak {x t : Text} (hr : '\r' ∉ x) (ht : AtBreak t) :
    endsLine (x ++ t) = endsLine x := by
  cases x with
  | nil => exact endsLine_of_atBreak ht
  | cons c x =>
    rw [List.mem_cons, not_or] at hr
    rw [List.cons_append, endsLine_cons_of_ne (Ne.symm hr.1), endsLine_cons_of_ne (Ne.symm hr.1)]

/-! ### Marks -/

/-- What an escape is told by in a string with the end `stop`. -/
def Escape.marks (stop : Text) : Escape → List Text
  | .none => []
  | .char c => [c :: stop, [c, c]]
  | .double => [stop ++ stop]

def BlockRule.marks (rule : BlockRule) : List Text := [rule.start, rule.stop]

def StringRule.marks (rule : StringRule) : List Text :=
  rule.start :: rule.stop :: rule.escape.marks rule.stop

/-- All that a scan looks for, line ends apart. -/
def Rules.marks (rules : Rules) : List Text :=
  rules.lines.map (·.start) ++ rules.blocks.flatMap BlockRule.marks ++
    rules.strings.flatMap StringRule.marks

variable {rules : Rules} {cut cut' : Bool} {before before' after after' text s rest rest' : Text}
  {o : Opening}

theorem LineRule.start_mem_marks {rule : LineRule} (h : rule ∈ rules.lines) :
    rule.start ∈ rules.marks :=
  List.mem_append_left _ (List.mem_append_left _ (List.mem_map_of_mem h))

theorem BlockRule.mem_marks {rule : BlockRule} (h : rule ∈ rules.blocks) {p : Text}
    (hp : p ∈ rule.marks) : p ∈ rules.marks :=
  List.mem_append_left _ (List.mem_append_right _ (List.mem_flatMap_of_mem h hp))

theorem StringRule.mem_marks {rule : StringRule} (h : rule ∈ rules.strings) {p : Text}
    (hp : p ∈ rule.marks) : p ∈ rules.marks :=
  List.mem_append_right _ (List.mem_flatMap_of_mem h hp)

theorem Opening.IsOf.start_mem_marks (h : o.IsOf rules) : o.start ∈ rules.marks := by
  cases o with
  | line rule => exact LineRule.start_mem_marks h
  | block rule => exact BlockRule.mem_marks h (List.mem_cons_self ..)
  | string rule => exact StringRule.mem_marks h (List.mem_cons_self ..)
  | lineOrString rule literal => exact LineRule.start_mem_marks h.1

theorem Rules.AvoidNewlines.not_mem_marks (h : rules.AvoidNewlines) :
    ∀ p ∈ rules.marks, '\n' ∉ p := by
  intro p hp
  rcases List.mem_append.1 hp with hp | hp
  · rcases List.mem_append.1 hp with hp | hp
    · obtain ⟨r, hr, rfl⟩ := List.mem_map.1 hp
      exact h.lines r hr
    · obtain ⟨r, hr, hp⟩ := List.mem_flatMap.1 hp
      obtain ⟨hstart, hstop⟩ := h.blocks r hr
      simp only [BlockRule.marks, List.mem_cons, List.not_mem_nil, or_false] at hp
      rcases hp with rfl | rfl
      · exact hstart
      · exact hstop
  · obtain ⟨r, hr, hp⟩ := List.mem_flatMap.1 hp
    obtain ⟨hstart, hstop, hescape⟩ := h.strings r hr
    rcases List.mem_cons.1 hp with rfl | hp
    · exact hstart
    rcases List.mem_cons.1 hp with rfl | hp
    · exact hstop
    -- An escape is told by its character and the end of the string, some of it twice.
    cases he : r.escape with
    | none => rw [he] at hp; cases hp
    | char c =>
      rw [he] at hp hescape
      simp only [Escape.chars, List.mem_singleton] at hescape
      simp only [Escape.marks, List.mem_cons, List.not_mem_nil, or_false] at hp
      rcases hp with rfl | rfl <;> simp [hescape, hstop]
    | double =>
      rw [he] at hp
      rw [List.mem_singleton.1 hp, List.mem_append]
      rintro (hmem | hmem) <;> exact hstop hmem

theorem Rules.AvoidNewlines.winnerAt_newline (h : rules.AvoidNewlines) (before rest : Text) :
    rules.winnerAt before ('\n' :: rest) = none := by
  refine Option.eq_none_iff_forall_ne_some.2 fun o hwin => ?_
  have hfront := List.isPrefixOf_iff_prefix.1 (Rules.startsWith_of_winnerAt hwin)
  rcases hstart : o.start with _ | ⟨c, start⟩
  · exact Opening.start_ne_nil _ hstart
  · rw [hstart] at hfront
    obtain ⟨rfl, -⟩ := List.cons_prefix_cons.1 hfront
    refine h.not_mem_marks o.start (Opening.isOf_of_winnerAt hwin).start_mem_marks ?_
    rw [hstart]
    exact List.mem_cons_self ..

/-- A look tells a scan by the rules nothing about which of two texts comes. -/
structure Rules.LooksSame (rules : Rules) (after after' : Text) : Prop where
  ends : endsLine after = endsLine after'
  stands : ∀ p ∈ rules.marks, startsWith p after = startsWith p after'

theorem Rules.LooksSame.refl (rules : Rules) (after : Text) : rules.LooksSame after after :=
  ⟨rfl, fun _ _ => rfl⟩

theorem Rules.LooksSame.symm (h : rules.LooksSame after after') : rules.LooksSame after' after :=
  ⟨h.ends.symm, fun p hp => (h.stands p hp).symm⟩

theorem Rules.LooksSame.trans {after'' : Text} (h : rules.LooksSame after after')
    (h' : rules.LooksSame after' after'') : rules.LooksSame after after'' :=
  ⟨h.ends.trans h'.ends, fun p hp => (h.stands p hp).trans (h'.stands p hp)⟩

theorem looksSame_of_length {x : Text} (htwo : 2 ≤ x.length)
    (hmarks : ∀ p ∈ rules.marks, p.length ≤ x.length) (t : Text) : rules.LooksSame (x ++ t) x where
  ends := endsLine_append_of_length htwo t
  stands p hp := startsWith_append_of_length (hmarks p hp) t

theorem looksSame_of_newline {x : Text} (hx : '\n' ∈ x) (hmarks : ∀ p ∈ rules.marks, '\n' ∉ p)
    (t : Text) : rules.LooksSame (x ++ t) x where
  ends := endsLine_append_of_newline hx t
  stands p hp := startsWith_append_of_newline (hmarks p hp) hx t

theorem looksSame_of_atBreak {x t : Text} (hx : '\r' ∉ x) (hmarks : ∀ p ∈ rules.marks, '\n' ∉ p)
    (ht : AtBreak t) : rules.LooksSame (x ++ t) x where
  ends := endsLine_append_of_atBreak hx ht
  stands p hp := startsWith_append_of_atBreak (hmarks p hp) ht x

/-! ### Decisions -/

theorem Rules.LooksSame.winnerAt_eq (h : rules.LooksSame after after') (before : Text) :
    rules.winnerAt before after = rules.winnerAt before after' := by
  refine winnerAt_congr (fun r hr => ?_) (fun r hr => ?_) fun r hr => ?_
  · exact h.stands _ (LineRule.start_mem_marks hr)
  · rw [h.stands _ (BlockRule.mem_marks hr (List.mem_cons_self ..))]
  · exact h.stands _ (StringRule.mem_marks hr (List.mem_cons_self ..))

theorem decideLine_congr (h : endsLine after = endsLine after') (u : Unit) :
    decideLine u before after = decideLine u before' after' := by
  rw [decideLine, decideLine, h]

theorem decideBlock_congr {rule : BlockRule}
    (hgate : rule.openAfter before = rule.openAfter before')
    (hstop : startsWith rule.stop after = startsWith rule.stop after')
    (hstart : rule.nested = true → startsWith rule.start after = startsWith rule.start after')
    (depth : Nat) :
    decideBlock rule depth before after = decideBlock rule depth before' after' := by
  unfold decideBlock
  rw [hgate, hstop]
  cases hnested : rule.nested with
  | true => rw [hstart hnested]
  | false => rw [Bool.and_false, Bool.false_and, Bool.false_and]

theorem unitAt_congr {e : Escape} {stop : Text}
    (h : ∀ p ∈ e.marks stop, startsWith p after = startsWith p after') :
    e.unitAt stop after = e.unitAt stop after' := by
  cases e with
  | none => rfl
  | char c =>
    have hstop := h (c :: stop) (List.mem_cons_self ..)
    have htwice := h [c, c] (List.mem_cons_of_mem _ (List.mem_cons_self ..))
    rw [Escape.unitAt, Escape.unitAt, hstop, htwice]
  | double =>
    have htwice := h (stop ++ stop) (List.mem_cons_self ..)
    rw [Escape.unitAt, Escape.unitAt, htwice]

theorem decideString_congr {rule : StringRule} {β : Type} (b : β)
    (h : ∀ p ∈ rule.marks, startsWith p after = startsWith p after') (u : Unit) :
    decideString rule b u before after = decideString rule b u before' after' := by
  have hunit : rule.escape.unitAt rule.stop after = rule.escape.unitAt rule.stop after' :=
    unitAt_congr fun p hp => h p (List.mem_cons_of_mem _ (List.mem_cons_of_mem _ hp))
  have hstop := h rule.stop (List.mem_cons_of_mem _ (List.mem_cons_self ..))
  rw [decideString, decideString, hunit, hstop]

theorem decideLineOrString_congr {rule : StringRule} (hends : endsLine after = endsLine after')
    (h : ∀ p ∈ rule.marks, startsWith p after = startsWith p after') (u : Unit) :
    decideLineOrString rule u before after = decideLineOrString rule u before' after' := by
  have hstring : decideString rule false () before after =
      decideString rule false () before' after' := decideString_congr false h ()
  rw [decideLineOrString, decideLineOrString, hends, hstring]

/-! ### What is read -/

section Reads

variable {α β : Type} {d : Decider α β} {a : α} {b : β}

/-- A stretch is read behind `before'` and in front of `rest'` as well, if at every place on the
way the decision there is the same. -/
theorem Reads.congr (h : Reads d cut a before s rest b)
    (hsame : ∀ a u v, s = u ++ v → Reads d cut a (before ++ u) v rest b →
      d a (before ++ u) (v ++ rest) = d a (before' ++ u) (v ++ rest'))
    (hcut : (cut = true → rest ≠ []) → cut' = true → rest' ≠ []) :
    Reads d cut' a before' s rest' b := by
  -- By the way through the stretch; `u` is the part of it that is behind.
  induction h generalizing before' with
  | @stop a before rest b hdec hgoes =>
    have heq := hsame a [] [] rfl (by rw [List.append_nil]; exact .stop hdec hgoes)
    rw [List.append_nil, List.append_nil, List.nil_append, List.nil_append, hdec] at heq
    exact .stop heq.symm (hcut hgoes)
  | @last a before s rest b hdec hs =>
    have heq := hsame a [] s rfl (by rw [List.append_nil]; exact .last hdec hs)
    rw [List.append_nil, List.append_nil, hdec] at heq
    exact .last heq.symm hs
  | @more a a' before w s rest b hdec hw hnext ih =>
    have heq := hsame a [] (w ++ s) rfl (by rw [List.append_nil]; exact .more hdec hw hnext)
    rw [List.append_nil, List.append_nil, List.append_assoc, List.append_assoc, hdec] at heq
    refine .more heq.symm hw (ih (fun a u v hs hreads => ?_) hcut)
    have := hsame a (w ++ u) v (by rw [hs, List.append_assoc])
    rw [← List.append_assoc, ← List.append_assoc] at this
    exact this hreads

/-- A stretch that only a certain text can end does end in it. -/
theorem Reads.exists_last {p : Text} (h : Reads d cut a before s rest b)
    (hstop : ∀ a before after, d a before after ≠ .stop b)
    (hlast : ∀ a before u rest, d a before (u ++ rest) = .last u.length b → u = p) :
    ∃ s₀, s = s₀ ++ p := by
  induction h with
  | stop hdec _ => exact absurd hdec (hstop _ _ _)
  | last hdec _ => exact ⟨[], (hlast _ _ _ _ hdec)⟩
  | @more a a' before u s rest b _ _ _ ih =>
    obtain ⟨s₀, rfl⟩ := ih hstop hlast
    exact ⟨u ++ s₀, (List.append_assoc ..).symm⟩

/-- A stretch that no text ends, ends in front of what stops it. -/
theorem Reads.exists_stop (h : Reads d cut a before s rest b)
    (hlast : ∀ a before after n, d a before after ≠ .last n b) :
    ∃ a' before', d a' before' rest = .stop b := by
  induction h with
  | stop hdec _ => exact ⟨_, _, hdec⟩
  | last hdec _ => exact absurd hdec (hlast _ _ _ _)
  | more _ _ _ ih => exact ih hlast

end Reads

theorem Reads.exists_stop_block {rule : BlockRule} {depth : Nat}
    (h : Reads (decideBlock rule) cut depth before s rest ()) : ∃ s₀, s = s₀ ++ rule.stop := by
  refine h.exists_last ?_ ?_
  · intro depth before after hd
    unfold decideBlock at hd
    split at hd
    · split at hd <;> cases hd
    · split at hd <;> cases hd
  · intro depth before u rest hd
    unfold decideBlock at hd
    split at hd
    · next hs =>
      split at hd
      · exact (eq_of_startsWith (Bool.and_eq_true _ _ ▸ hs).2 (Decision.last.inj hd).1).symm
      · cases hd
    · split at hd <;> cases hd

theorem eq_stop_of_decideString_last {rule : StringRule} {β : Type} {b b' : β} {u : Text}
    (hd : decideString rule b () before (u ++ rest) = .last u.length b') : u = rule.stop := by
  unfold decideString at hd
  split at hd
  · cases hd
  · split at hd
    · next hs => exact (eq_of_startsWith hs (Decision.last.inj hd).1).symm
    · cases hd

theorem Reads.exists_stop_string {rule : StringRule} {β : Type} {b : β}
    (h : Reads (decideString rule b) cut () before s rest b) : ∃ s₀, s = s₀ ++ rule.stop :=
  h.exists_last (fun _ _ _ => decideString_ne_stop) fun _ _ _ _ => eq_stop_of_decideString_last

theorem Reads.exists_stop_stringNotLine {rule : StringRule}
    (h : Reads (decideLineOrString rule) cut () before s rest false) :
    ∃ s₀, s = s₀ ++ rule.stop := by
  refine h.exists_last ?_ ?_
  · intro _ _ _ hd
    unfold decideLineOrString at hd
    split at hd
    · cases hd
    · exact decideString_ne_stop hd
  · intro _ _ _ _ hd
    unfold decideLineOrString at hd
    split at hd
    · cases hd
    · exact eq_stop_of_decideString_last hd

/-- An opening goes on alike at another place and in front of another rest, if a scan could not
tell on the way. -/
theorem Opening.Closes.congr {form : Option Comment.Form} (hrules : o.IsOf rules)
    (h : o.Closes cut before s rest form)
    (hsame : ∀ u v, s = u ++ v → rules.LooksSame (v ++ rest) (v ++ rest'))
    (hgate : ∀ rule, o = .block rule →
      ∀ u, rule.openAfter (before ++ u) = rule.openAfter (before' ++ u))
    (hcut : (cut = true → rest ≠ []) → cut' = true → rest' ≠ []) :
    o.Closes cut' before' s rest' form := by
  have hstring {rule : StringRule} (hmem : rule ∈ rules.strings) {u v : Text} (hs : s = u ++ v) :
      ∀ p ∈ rule.marks, startsWith p (v ++ rest) = startsWith p (v ++ rest') :=
    fun p hp => (hsame u v hs).stands p (StringRule.mem_marks hmem hp)
  cases h with
  | line h =>
    exact .line (h.congr (fun a u v hs _ => decideLine_congr (hsame u v hs).ends a) hcut)
  | @block rule _ _ h =>
    refine .block (h.congr (fun depth u v hs _ => ?_) hcut)
    have hmark {p : Text} (hp : p ∈ rule.marks) :
        startsWith p (v ++ rest) = startsWith p (v ++ rest') :=
      (hsame u v hs).stands p (BlockRule.mem_marks hrules hp)
    have hstart := hmark (List.mem_cons_self ..)
    have hstop := hmark (List.mem_cons_of_mem _ (List.mem_cons_self ..))
    exact decideBlock_congr (hgate rule rfl u) hstop (fun _ => hstart) depth
  | string h =>
    exact .string (h.congr (fun a u v hs _ => decideString_congr () (hstring hrules hs) a) hcut)
  | lineNotString h =>
    exact .lineNotString (h.congr (fun a u v hs _ =>
      decideLineOrString_congr (hsame u v hs).ends (hstring hrules.2 hs) a) hcut)
  | stringNotLine h =>
    exact .stringNotLine (h.congr (fun a u v hs _ =>
      decideLineOrString_congr (hsame u v hs).ends (hstring hrules.2 hs) a) hcut)

end SourceNotes
