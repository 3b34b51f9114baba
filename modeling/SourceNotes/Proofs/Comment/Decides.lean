/-
The decisions of a scan.

Every decision that a scan takes looks a bounded way ahead (`Rules.lookaheads`). It depends
on the place alone, and it is the one by which the segments of a text are defined.

* **`Decides`** — a step of a scan takes the decisions of a `Decider`, and moves over
  runes that are there;
* **`decides_codeStep`**, **`decides_lineStep`**, **`decides_blockStep`**,
  **`decides_stringStep`**, **`decides_lineOrStringStep`** — the five kinds of steps.
-/
import SourceNotes.Proofs.Comment.Place

namespace SourceNotes

open Head Text

/-! ### Looking ahead -/

/-- How far an escape looks ahead in a string with the end `stop`. -/
def Escape.reach (stop : Text) : Escape → Nat
  | .none => 0
  | .char _ => 1 + stop.length
  | .double => stop.length + stop.length

/-- How far a block comment looks ahead. -/
def BlockRule.lookaheads (rule : BlockRule) : List Nat := [rule.start.length, rule.stop.length]

/-- How far a string looks ahead. -/
def StringRule.lookaheads (rule : StringRule) : List Nat :=
  [rule.start.length, rule.stop.length, rule.escape.reach rule.stop]

/-- How far a scan looks ahead; two runes show a line end or an escaped escape character. -/
def Rules.lookaheads (rules : Rules) : List Nat :=
  2 :: (rules.lines.map (·.start.length) ++ rules.blocks.flatMap BlockRule.lookaheads ++
    rules.strings.flatMap StringRule.lookaheads)

/-- A reader with the limit `maxPeek` can look as far ahead as the rules need. -/
def Rules.Fits (rules : Rules) (maxPeek : Nat) : Prop := ∀ n ∈ rules.lookaheads, n ≤ maxPeek

instance (rules : Rules) (maxPeek : Nat) : Decidable (rules.Fits maxPeek) :=
  inferInstanceAs (Decidable (∀ n ∈ rules.lookaheads, n ≤ maxPeek))

theorem Rules.Fits.one_le {rules : Rules} {maxPeek : Int} (h : rules.Fits maxPeek.toNat) :
    1 ≤ maxPeek := by
  have := h 2 (List.mem_cons_self ..)
  omega

variable {σ : Source} {α β : Type} {rules : Rules}

/-- A scan by the rules may look as far ahead as they need. -/
def Source.Serves (σ : Source) (rules : Rules) : Prop := ∀ n ∈ rules.lookaheads, σ.Allows n

namespace Source.Serves

theorem two (hserves : σ.Serves rules) : σ.Allows 2 := hserves 2 (List.mem_cons_self ..)

theorem line (hserves : σ.Serves rules) {rule : LineRule} (h : rule ∈ rules.lines) :
    σ.Allows rule.start.length := by
  refine hserves _ (List.mem_cons_of_mem _ (List.mem_append_left _ (List.mem_append_left _ ?_)))
  exact List.mem_map_of_mem h

theorem block (hserves : σ.Serves rules) {rule : BlockRule} (h : rule ∈ rules.blocks) :
    ∀ n ∈ rule.lookaheads, σ.Allows n := by
  intro n hn
  refine hserves n (List.mem_cons_of_mem _ (List.mem_append_left _ (List.mem_append_right _ ?_)))
  exact List.mem_flatMap_of_mem h hn

theorem string (hserves : σ.Serves rules) {rule : StringRule} (h : rule ∈ rules.strings) :
    ∀ n ∈ rule.lookaheads, σ.Allows n := by
  intro n hn
  refine hserves n (List.mem_cons_of_mem _ (List.mem_append_right _ ?_))
  exact List.mem_flatMap_of_mem h hn

end Source.Serves

theorem Source.Allows.one (h : σ.Allows 2) : σ.Allows 1 :=
  fun hable => Nat.le_of_succ_le (h hable)

/-! ### Steps -/

/-- A move over `n` runes in front of `after` that the reader allows. Only at the end of the
text there may be fewer. -/
structure Moves (σ : Source) (after : Text) (n : Nat) : Prop where
  pos : 0 < n
  allowed : σ.Allows n
  le_length : after ≠ [] → n ≤ after.length

/-- The steps `choose` take the decisions `d`. -/
structure Decides (σ : Source) (choose : α → Scan (Decision α β)) (d : Decider α β) : Prop where
  shows : ∀ a, Shows σ (choose a) (d a)
  /-- A decision to end behind all of the text needs to know that there is no fault. -/
  fails_of_stop : ∀ {a before b h}, h.At σ before [] → σ.cut = true → d a before [] = .stop b →
    Fails σ (choose a) h
  moves_last : ∀ {a before after n b}, d a before after = .last n b → Moves σ after n
  moves_more : ∀ {a before after n a'}, d a before after = .more n a' → Moves σ after n

theorem moves_one (σ : Source) (htwo : σ.Allows 2) (after : Text) : Moves σ after 1 where
  pos := Nat.one_pos
  allowed := htwo.one
  le_length := List.length_pos_iff.2

/-- Moving over what stands there. -/
theorem moves_of_startsWith {s after : Text} (hs : s ≠ []) (hle : σ.Allows s.length)
    (h : startsWith s after = true) : Moves σ after s.length where
  pos := List.length_pos_iff.2 hs
  allowed := hle
  le_length := fun _ => (List.isPrefixOf_iff_prefix.1 h).length_le

/-! ### In code -/

theorem shows_tryLine (found : Option Opening) {rule : LineRule}
    (hle : σ.Allows rule.start.length) :
    Shows σ (tryLine found rule) fun _ after => findLine after found rule := by
  unfold tryLine findLine
  by_cases hlong : rule.start.length ≤ Opening.size found
  · simp only [if_pos hlong]
    exact shows_pure found
  · simp only [if_neg hlong]
    exact (shows_sees rule.start_ne_nil hle).bind fun seen => shows_pure _

theorem shows_tryString (found : Option Opening) {rule : StringRule}
    (hle : σ.Allows rule.start.length) :
    Shows σ (tryString found rule) fun _ after => findString after found rule := by
  unfold tryString findString
  by_cases hlong : rule.start.length < Opening.size found
  · simp only [if_pos hlong]
    exact shows_pure found
  · simp only [if_neg hlong]
    have hsees := shows_sees (σ := σ) rule.start_ne_nil hle
    by_cases hwins : Opening.size found < rule.start.length
    · simp only [if_pos hwins]
      exact hsees.bind fun seen => Shows.ite seen (shows_pure _) (shows_pure _)
    · simp only [if_neg hwins]
      rcases found with _ | (_ | _ | _ | _) <;>
        exact hsees.bind fun seen => Shows.ite seen (shows_pure _) (shows_pure _)

theorem shows_tryBlock (found : Option Opening) {rule : BlockRule}
    (hle : σ.Allows rule.start.length) :
    Shows σ (tryBlock found rule) fun before after => findBlock before after found rule := by
  unfold tryBlock findBlock
  refine Shows.ite _ (shows_pure found) (shows_gate rule ?_ (shows_pure found))
  exact (shows_sees rule.start_ne_nil hle).bind fun seen => shows_pure _

/-- A scan finds the winner. -/
theorem shows_opening (hserves : σ.Serves rules) :
    Shows σ (opening rules) rules.winnerAt := by
  refine Shows.congr ?_ (foldl_find_eq_winnerAt rules)
  -- The three kinds of rules are gone through one after another, each from what was found.
  refine Shows.bind (Shows.foldlM (fun b r hr => shows_tryLine b (hserves.line hr)) none)
    (w := fun found before after => rules.blocks.foldl (findBlock before after)
      (rules.strings.foldl (findString after) found)) fun found => ?_
  refine Shows.bind (Shows.foldlM (fun b r hr => shows_tryString b ?_) found)
    (w := fun found before after => rules.blocks.foldl (findBlock before after) found)
    fun found => ?_
  · exact hserves.string hr _ (List.mem_cons_self ..)
  · refine Shows.foldlM (fun b r hr => shows_tryBlock b ?_) found
    exact hserves.block hr _ (List.mem_cons_self ..)

/-- In code: the winner, with the line on which it begins. -/
def decideCode (rules : Rules) : Decider Unit (Opening × Nat) := fun _ before after =>
  match rules.winnerAt before after with
  | none => .more 1 ()
  | some o => .last o.start.length (o, 1 + before.count '\n')

theorem Source.Serves.start (hserves : σ.Serves rules) {o : Opening} (h : o.IsOf rules) :
    σ.Allows o.start.length := by
  cases o with
  | line rule => exact hserves.line h
  | string rule => exact hserves.string h _ (List.mem_cons_self ..)
  | block rule => exact hserves.block h _ (List.mem_cons_self ..)
  | lineOrString rule literal => exact hserves.line h.1

theorem decides_codeStep (hserves : σ.Serves rules) :
    Decides σ (codeStep rules) (decideCode rules) where
  shows _ := by
    refine Shows.congr ((shows_opening hserves).bind (w := fun found before _ =>
      match found with
      | none => Decision.more 1 ()
      | some o => .last o.start.length (o, 1 + before.count '\n')) fun found => ?_) ?_
    · cases found with
      | none => exact shows_pure _
      | some o => exact shows_line fun line => Decision.last o.start.length (o, line)
    · intro before after
      rfl
  fails_of_stop := by
    intro _ before b h _ _ hd
    rw [decideCode, Rules.winnerAt_nil] at hd
    cases hd
  moves_last := by
    intro _ before after n b hd
    unfold decideCode at hd
    split at hd
    · cases hd
    · next o hwin =>
      cases hd
      exact moves_of_startsWith (Opening.start_ne_nil _)
        (hserves.start (Opening.isOf_of_winnerAt hwin)) (Rules.startsWith_of_winnerAt hwin)
  moves_more := by
    intro _ before after n a hd
    unfold decideCode at hd
    split at hd
    · cases hd; exact moves_one σ hserves.two after
    · cases hd

/-! ### In comments and strings -/

theorem shows_atLineEnd (htwo : σ.Allows 2) : Shows σ atLineEnd fun _ after => endsLine after := by
  refine Shows.congr ((shows_look Nat.two_pos htwo).bind fun s => shows_pure _) ?_
  intro _ after
  -- Two runes show the end of a line, or fewer if there are no more.
  rcases after with _ | ⟨c, _ | ⟨d, after⟩⟩
  · rfl
  · simp [endsLine, startsWith, List.isPrefixOf, BEq.comm]
    rfl
  · simp [endsLine, startsWith, List.isPrefixOf, BEq.comm]
    rfl

/-- Behind all of the text a fault hides whether the line ends. -/
theorem Head.At.fails_atLineEnd (htwo : σ.Allows 2) {before : Text} {h : Head}
    (hat : h.At σ before []) (hcut : σ.cut = true) : Fails σ atLineEnd h :=
  (hat.fails_look hcut Nat.two_pos htwo).bind _

theorem decides_lineStep (htwo : σ.Allows 2) : Decides σ lineStep decideLine where
  shows _ := (shows_atLineEnd htwo).bind fun ends => Shows.ite ends (shows_pure _) (shows_pure _)
  fails_of_stop hat hcut _ := (hat.fails_atLineEnd htwo hcut).bind _
  moves_last hd := by
    unfold decideLine at hd
    split at hd <;> cases hd
  moves_more hd := by
    unfold decideLine at hd
    split at hd <;> cases hd
    exact moves_one σ htwo _

theorem shows_blockStep {rule : BlockRule} (hfit : ∀ n ∈ rule.lookaheads, σ.Allows n)
    (depth : Nat) : Shows σ (blockStep rule depth) (decideBlock rule depth) := by
  have hstart : Shows σ (sees rule.start) fun _ after => startsWith rule.start after :=
    shows_sees rule.start_ne_nil (hfit _ (by simp [BlockRule.lookaheads]))
  have hstop : Shows σ (sees rule.stop) fun _ after => startsWith rule.stop after :=
    shows_sees rule.stop_ne_nil (hfit _ (by simp [BlockRule.lookaheads]))
  have hmore : Shows σ (pure (.more 1 depth : Decision Nat Unit)) fun _ _ => .more 1 depth :=
    shows_pure _
  have hgoesOn := Shows.ite rule.nested
    (hstart.bind fun starts => Shows.ite starts (shows_pure (.more rule.start.length (depth + 1)))
      hmore) hmore
  -- Behind an open gate: the stop comes first, then a start inside the comment.
  cases depth with
  | zero =>
    refine Shows.congr (shows_gate rule (hstop.bind fun stops =>
      Shows.ite stops (shows_pure (Decision.last rule.stop.length ())) hgoesOn) hmore) ?_
    intro before after
    unfold decideBlock
    cases rule.openAfter before <;> cases rule.nested <;> simp
  | succ depth =>
    refine Shows.congr (shows_gate rule (hstop.bind fun stops =>
      Shows.ite stops (shows_pure (Decision.more rule.stop.length depth)) hgoesOn) hmore) ?_
    intro before after
    unfold decideBlock
    cases rule.openAfter before <;> cases rule.nested <;> simp

theorem decides_blockStep {rule : BlockRule} (htwo : σ.Allows 2)
    (hfit : ∀ n ∈ rule.lookaheads, σ.Allows n) :
    Decides σ (blockStep rule) (decideBlock rule) := by
  have hstart {after : Text} (h : startsWith rule.start after = true) :
      Moves σ after rule.start.length :=
    moves_of_startsWith rule.start_ne_nil (hfit _ (by simp [BlockRule.lookaheads])) h
  have hstop {after : Text} (h : startsWith rule.stop after = true) :
      Moves σ after rule.stop.length :=
    moves_of_startsWith rule.stop_ne_nil (hfit _ (by simp [BlockRule.lookaheads])) h
  refine ⟨shows_blockStep hfit, ?_, ?_, ?_⟩
  · intro depth before b h _ _ hd
    unfold decideBlock at hd
    split at hd
    · split at hd <;> cases hd
    · split at hd <;> cases hd
  · intro depth before after n b hd
    unfold decideBlock at hd
    split at hd
    · next hs =>
      split at hd <;> cases hd
      exact hstop (Bool.and_eq_true _ _ ▸ hs).2
    · split at hd <;> cases hd
  · intro depth before after n b hd
    unfold decideBlock at hd
    split at hd
    · next hs =>
      split at hd <;> cases hd
      exact hstop (Bool.and_eq_true _ _ ▸ hs).2
    · split at hd
      · next hs =>
        cases hd
        exact hstart (Bool.and_eq_true _ _ ▸ hs).2
      · cases hd
        exact moves_one σ htwo after

theorem ite_take (p s t : Text) :
    (if s.take p.length = p then s.take p.length else t) = if startsWith p s then p else t := by
  by_cases h : s.take p.length = p
  · rw [if_pos h, if_pos ((take_eq_iff p s).1 h), h]
  · rw [if_neg h, if_neg (mt (take_eq_iff p s).2 h)]

theorem shows_unit {e : Escape} {stop : Text} (hstop : stop ≠ []) (htwo : σ.Allows 2)
    (hreach : σ.Allows (e.reach stop)) :
    Shows σ (ask (e.unit stop)) fun _ after => e.unitAt stop after := by
  have hlen := List.length_pos_iff.2 hstop
  cases e with
  | none => exact shows_pure _
  | char c =>
    -- A first look for the escaped end, a second one for the escaped character.
    have hfirst : σ.Allows (c :: stop).length := by
      rw [Escape.reach, Nat.add_comm] at hreach
      exact hreach
    rw [Escape.unit, ask_bind]
    refine Shows.congr (Shows.bind (shows_look (Nat.succ_pos _) hfirst) (w := fun s _ after =>
      if s = c :: stop then s
      else if stop.head? = some c then []
      else if after.take 2 = [c, c] then after.take 2 else []) fun s => ?_) ?_
    · split
      · exact shows_pure _
      · split
        · exact shows_pure _
        · rw [ask_bind]
          exact (shows_look Nat.two_pos htwo).bind fun t => shows_pure _
    · intro _ after
      rw [Escape.unitAt, ← ite_take, ← ite_take]
      rfl
  | double =>
    rw [Escape.unit, ask_bind]
    refine Shows.congr ((shows_look ?_ ?_).bind fun s => shows_pure _) ?_
    · rw [List.length_append]; omega
    · rw [List.length_append]; exact hreach
    · intro _ after
      rw [Escape.unitAt]
      exact ite_take ..

/-- What is skipped together stands there, within reach. -/
theorem unitAt_spec (e : Escape) (stop after : Text) :
    startsWith (e.unitAt stop after) after = true ∧
      (e.unitAt stop after).length ≤ max 2 (e.reach stop) := by
  have hnil : startsWith [] after = true := rfl
  cases e with
  | none => exact ⟨hnil, Nat.zero_le _⟩
  | char c =>
    simp only [Escape.unitAt, Escape.reach]
    split
    · next hs => exact ⟨hs, by rw [List.length_cons]; omega⟩
    · split
      · exact ⟨hnil, Nat.zero_le _⟩
      · split
        · next hs => exact ⟨hs, Nat.le_max_left ..⟩
        · exact ⟨hnil, Nat.zero_le _⟩
  | double =>
    simp only [Escape.unitAt, Escape.reach]
    split
    · next hs => exact ⟨hs, by rw [List.length_append]; exact Nat.le_max_right ..⟩
    · exact ⟨hnil, Nat.zero_le _⟩

theorem moves_unit {e : Escape} {stop after : Text} (htwo : σ.Allows 2)
    (hreach : σ.Allows (e.reach stop)) (hskip : e.unitAt stop after ≠ []) :
    Moves σ after (e.unitAt stop after).length := by
  obtain ⟨hs, hlen⟩ := unitAt_spec e stop after
  exact moves_of_startsWith hskip
    (fun hable => Nat.le_trans hlen (Nat.max_le.2 ⟨htwo hable, hreach hable⟩)) hs

/-- The steps of a string literal, and of what may be one, in front of an end that is not a
line end. -/
theorem shows_decideString {rule : StringRule} {β : Type} (b : β) (htwo : σ.Allows 2)
    (hfit : ∀ n ∈ rule.lookaheads, σ.Allows n) :
    Shows σ (do
        let skipped ← ask (rule.escape.unit rule.stop)
        if skipped ≠ [] then return .more skipped.length ()
        else if ← sees rule.stop then return .last rule.stop.length b
        else return .more 1 ())
      (decideString rule b ()) := by
  have hreach : σ.Allows (rule.escape.reach rule.stop) := hfit _ (by simp [StringRule.lookaheads])
  have hstop : σ.Allows rule.stop.length := hfit _ (by simp [StringRule.lookaheads])
  refine Shows.bind (shows_unit rule.stop_ne_nil htwo hreach) (w := fun skipped _ after =>
    if skipped ≠ [] then Decision.more skipped.length ()
    else if startsWith rule.stop after then .last rule.stop.length b
    else .more 1 ()) fun skipped => ?_
  by_cases hskip : skipped ≠ []
  · simp only [if_pos hskip]
    exact shows_pure _
  · simp only [if_neg hskip]
    exact (shows_sees rule.stop_ne_nil hstop).bind
      fun stops => Shows.ite stops (shows_pure _) (shows_pure _)

theorem decideString_ne_stop {rule : StringRule} {β : Type} {b b' : β} {before after : Text} :
    decideString rule b () before after ≠ .stop b' := by
  intro hd
  unfold decideString at hd
  split at hd
  · cases hd
  · split at hd <;> cases hd

/-- A string has one answer at its end. -/
theorem eq_of_decideString_last {rule : StringRule} {β : Type} {b b' : β} {before after : Text}
    {n : Nat} (hd : decideString rule b () before after = .last n b') : b = b' := by
  unfold decideString at hd
  split at hd
  · cases hd
  · split at hd
    · exact (Decision.last.inj hd).2
    · cases hd

theorem moves_of_decideString_last {rule : StringRule} {β : Type} {b b' : β}
    {before after : Text} {n : Nat} (hfit : ∀ n ∈ rule.lookaheads, σ.Allows n)
    (hd : decideString rule b () before after = .last n b') : Moves σ after n := by
  unfold decideString at hd
  split at hd
  · cases hd
  · split at hd
    · next hs =>
      cases hd
      exact moves_of_startsWith rule.stop_ne_nil (hfit _ (by simp [StringRule.lookaheads])) hs
    · cases hd

theorem moves_of_decideString_more {rule : StringRule} {β : Type} {b : β}
    {before after : Text} {n : Nat} {u : Unit} (htwo : σ.Allows 2)
    (hfit : ∀ n ∈ rule.lookaheads, σ.Allows n)
    (hd : decideString rule b () before after = .more n u) : Moves σ after n := by
  unfold decideString at hd
  split at hd
  · next hskip =>
    cases hd
    exact moves_unit htwo (hfit _ (by simp [StringRule.lookaheads])) hskip
  · split at hd
    · cases hd
    · cases hd
      exact moves_one σ htwo after

theorem decides_stringStep {rule : StringRule} (htwo : σ.Allows 2)
    (hfit : ∀ n ∈ rule.lookaheads, σ.Allows n) :
    Decides σ (stringStep rule) (decideString rule ()) where
  shows _ := shows_decideString () htwo hfit
  fails_of_stop _ _ hd := absurd hd decideString_ne_stop
  moves_last hd := moves_of_decideString_last hfit hd
  moves_more hd := moves_of_decideString_more htwo hfit hd

theorem decides_lineOrStringStep {rule : StringRule} (htwo : σ.Allows 2)
    (hfit : ∀ n ∈ rule.lookaheads, σ.Allows n) :
    Decides σ (lineOrStringStep rule) (decideLineOrString rule) where
  shows _ := (shows_atLineEnd htwo).bind
    fun ends => Shows.ite ends (shows_pure _) (shows_decideString false htwo hfit)
  fails_of_stop hat hcut _ := (hat.fails_atLineEnd htwo hcut).bind _
  moves_last hd := by
    unfold decideLineOrString at hd
    split at hd
    · cases hd
    · exact moves_of_decideString_last hfit hd
  moves_more hd := by
    unfold decideLineOrString at hd
    split at hd
    · cases hd
    · exact moves_of_decideString_more htwo hfit hd

end SourceNotes
