/-
The calls that a scan makes.

All that a scan does to its reader is to make calls: it peeks, some times for each decision, and
advances over what it has peeked at. So each part of a scan comes of a list of calls, whose number
is bounded by what they consume.

* **`Head.ComesOf`** — a result that a list of calls leads to; an error is the one that the last
  call raised;
* **`Head.Asks`** — computations that peek so many times at most, and consume nothing;
* **`Head.exists_calls_run`** — a run makes a bounded number of calls for each rune consumed;
* **`exists_calls_nextComment`**, **`Scanner.exists_calls_next`** — so does a call for the next
  comment, which has the start of its rule and lies in what was consumed;
* **`Scanner.exists_calls_after`** — an error that ended a scan was raised by the reader.
-/
import SourceNotes.Proofs.Comment.Calls
import SourceNotes.Proofs.Comment.OneLine

namespace SourceNotes

open Head Text

namespace Reader

variable {r : Reader} {calls more : List Call} {e : ReadError} {s : Text}

/-- The last of the calls raises the error. -/
def Raises (r : Reader) (calls : List Call) (e : ReadError) : Prop :=
  ∃ earlier c, calls = earlier ++ [c] ∧ ((r.after earlier).answer c).1 = .error e

theorem Raises.append (h : (r.after calls).Raises more e) : r.Raises (calls ++ more) e := by
  obtain ⟨earlier, c, rfl, hc⟩ := h
  refine ⟨calls ++ earlier, c, (List.append_assoc ..).symm, ?_⟩
  rwa [after_append]

/-- A look is a call to peek. -/
theorem answer_of_look_error {n : Nat} {r' : Reader} (h : look n r = .error e r') :
    r.answer (.peek n) = (.error e, r') := by
  have hpeek : peek n r = .error e r' := by
    rw [peek, if_neg (by omega), Int.toNat_natCast, h]
  simp only [answer, peekOk, bind, EStateM.bind, hpeek]

theorem answer_of_look {n : Nat} {r' : Reader} (h : look n r = .ok s r') :
    r.answer (.peek n) = (.runes s (s.length == n), r') := by
  have hpeek : peek n r = .ok s r' := by
    rw [peek, if_neg (by omega), Int.toNat_natCast, h]
  simp only [answer, peekOk, bind, EStateM.bind, hpeek, pure, EStateM.pure, Int.toNat_natCast]

end Reader

namespace Head

variable {α β γ : Type} {r : Reader} {calls more : List Call} {h h' : Head} {e : Halt}
  {j k n : Nat} {s : Text}

/-- The calls to the reader `r` lead to the result `x`. -/
structure ComesOf (r : Reader) (calls : List Call) (x : EStateM.Result Halt Head α) : Prop where
  reader_eq : (stateOf x).reader = r.after calls
  raises : ∀ error h, x = .error (.failed error) h → r.Raises calls error

theorem comesOf_nil (a : α) (h : Head) : ComesOf h.reader [] (.ok a h) :=
  ⟨rfl, fun _ _ he => by cases he⟩

theorem ComesOf.andThen {x : EStateM.Result Halt Head α} (hfirst : h.reader = r.after calls)
    (hrest : ComesOf h.reader more x) : ComesOf r (calls ++ more) x := by
  constructor
  · rw [hrest.reader_eq, hfirst, Reader.after_append]
  · intro error h₁ he
    refine Reader.Raises.append ?_
    rw [← hfirst]
    exact hrest.raises error h₁ he

/-- What comes of a result with another answer in it. -/
theorem ComesOf.imp {x : EStateM.Result Halt Head α} {y : EStateM.Result Halt Head β}
    (hx : ComesOf r calls x) (hstate : stateOf y = stateOf x)
    (herror : ∀ e h, y = .error e h → x = .error e h) : ComesOf r calls y := by
  constructor
  · rw [hstate, hx.reader_eq]
  · intro error h₁ he
    exact hx.raises error h₁ (herror _ _ he)

theorem ComesOf.error_imp (hx : ComesOf (α := α) r calls (.error e h)) :
    ComesOf (α := β) r calls (.error e h) := by
  refine hx.imp rfl fun e' h₁ he => ?_
  cases he
  rfl

theorem ComesOf.ok_imp {a : α} (hx : ComesOf r calls (.ok a h)) (b : β) :
    ComesOf r calls (.ok b h) :=
  hx.imp rfl fun _ _ he => by cases he

/-! ### Decisions -/

/-- The computation peeks `k` times at most, and does nothing else to the reader. -/
def Asks (k : Nat) (m : Scan α) : Prop :=
  ∀ h, ∃ calls, calls.length ≤ k ∧ h.reader.consumed calls = [] ∧ ComesOf h.reader calls (m h)

theorem Asks.mono {m : Scan α} (hm : Asks j m) (hle : j ≤ k) : Asks k m := by
  intro h
  obtain ⟨calls, hlen, hrest⟩ := hm h
  exact ⟨calls, Nat.le_trans hlen hle, hrest⟩

theorem asks_pure (k : Nat) (a : α) : Asks k (pure a) :=
  fun h => ⟨[], Nat.zero_le k, rfl, comesOf_nil a h⟩

theorem asks_get (k : Nat) : Asks k (get : Scan Head) :=
  fun h => ⟨[], Nat.zero_le k, rfl, comesOf_nil h h⟩

theorem Asks.bind {m : Scan α} {f : α → Scan β} (hm : Asks j m) (hf : ∀ a, Asks k (f a)) :
    Asks (j + k) (m >>= f) := by
  intro h
  obtain ⟨calls, hlen, hnone, hcomes⟩ := hm h
  cases hx : m h with
  | error e h' =>
    rw [hx] at hcomes
    rw [bind_of_error hx]
    exact ⟨calls, by omega, hnone, hcomes.error_imp⟩
  | ok a h' =>
    rw [hx] at hcomes
    obtain ⟨more, hlen', hnone', hcomes'⟩ := hf a h'
    have hreader : h'.reader = h.reader.after calls := hcomes.reader_eq
    rw [bind_of_ok hx]
    refine ⟨calls ++ more, ?_, ?_, hcomes'.andThen hreader⟩
    · rw [List.length_append]
      omega
    · rw [Reader.consumed_append, hnone, ← hreader, hnone']
      rfl

theorem asks_look (n : Nat) : Asks 1 (look n) := by
  intro h
  refine ⟨[.peek n], Nat.le_refl 1, rfl, ?_⟩
  unfold look ask
  cases hlook : Reader.look n h.reader with
  | ok s r' =>
    refine ⟨?_, fun error h₁ he => by cases he⟩
    show r' = (h.reader.answer (.peek n)).2
    rw [Reader.answer_of_look hlook]
  | error e r' =>
    refine ⟨?_, ?_⟩
    · show r' = (h.reader.answer (.peek n)).2
      rw [Reader.answer_of_look_error hlook]
    · intro error h₁ he
      cases he
      refine ⟨[], .peek n, rfl, ?_⟩
      show (h.reader.answer (.peek n)).1 = .error e
      rw [Reader.answer_of_look_error hlook]

theorem asks_sees (s : Text) : Asks 1 (sees s) := (asks_look s.length).bind fun _ => asks_pure 0 _

theorem asks_foldlM {f : β → γ → Scan β} (hf : ∀ b a, Asks k (f b a)) (l : List γ) (b : β) :
    Asks (l.length * k) (l.foldlM f b) := by
  induction l generalizing b with
  | nil => exact asks_pure _ b
  | cons a l ih =>
    rw [List.foldlM_cons]
    refine ((hf b a).bind fun b' => ih b').mono ?_
    rw [List.length_cons, Nat.succ_mul]
    omega

theorem asks_unit (e : Escape) (stop : Text) : Asks 2 (ask (e.unit stop)) := by
  cases e with
  | none => exact asks_pure 2 []
  | char c =>
    rw [Escape.unit, ask_bind]
    refine (asks_look _).bind (k := 1) fun s => ?_
    split
    · exact asks_pure 1 s
    · split
      · exact asks_pure 1 []
      · rw [ask_bind]
        exact (asks_look 2).bind fun s => asks_pure 0 _
  | double =>
    rw [Escape.unit, ask_bind]
    exact ((asks_look _).bind fun s => asks_pure 0 _).mono (by omega)

theorem asks_tryLine (found : Option Opening) (rule : LineRule) : Asks 1 (tryLine found rule) := by
  unfold tryLine
  split
  · exact asks_pure 1 found
  · exact (asks_sees _).bind fun _ => asks_pure 0 _

theorem asks_tryString (found : Option Opening) (rule : StringRule) :
    Asks 1 (tryString found rule) := by
  unfold tryString
  split
  · exact asks_pure 1 found
  · refine (asks_sees _).bind (k := 0) fun seen => ?_
    split
    · split
      · exact asks_pure 0 _
      · split <;> exact asks_pure 0 _
    · exact asks_pure 0 found

theorem asks_tryBlock (found : Option Opening) (rule : BlockRule) :
    Asks 1 (tryBlock found rule) := by
  unfold tryBlock
  split
  · exact asks_pure 1 found
  · refine (asks_get 0).bind (k := 1) fun h => ?_
    split
    · exact (asks_sees _).bind fun _ => asks_pure 0 _
    · exact asks_pure 1 found

/-- What begins at a place is found out by one peek for each rule. -/
theorem asks_opening (rules : Rules) :
    Asks (rules.lines.length + (rules.strings.length + rules.blocks.length)) (opening rules) := by
  refine Asks.bind ((asks_foldlM asks_tryLine _ none).mono (by omega)) fun found => ?_
  refine Asks.bind ((asks_foldlM asks_tryString _ found).mono (by omega)) fun found => ?_
  exact (asks_foldlM asks_tryBlock _ found).mono (by omega)

theorem asks_codeStep (rules : Rules) (u : Unit) :
    Asks (rules.lines.length + (rules.strings.length + rules.blocks.length))
      (codeStep rules u) := by
  refine ((asks_opening rules).bind (k := 0) fun found => ?_).mono (by omega)
  split
  · exact asks_pure 0 _
  · exact (asks_get 0).bind fun _ => asks_pure 0 _

theorem asks_atLineEnd : Asks 1 atLineEnd := (asks_look 2).bind fun _ => asks_pure 0 _

theorem asks_lineStep (u : Unit) : Asks 1 (lineStep u) := by
  refine asks_atLineEnd.bind (k := 0) fun ends => ?_
  split <;> exact asks_pure 0 _

theorem asks_blockStep (rule : BlockRule) (depth : Nat) : Asks 2 (blockStep rule depth) := by
  refine (asks_get 0).bind (k := 2) fun h => ?_
  split
  · refine (asks_sees _).bind (k := 1) fun stops => ?_
    split
    · split <;> exact asks_pure 1 _
    · split
      · refine (asks_sees _).bind (k := 0) fun starts => ?_
        split <;> exact asks_pure 0 _
      · exact asks_pure 1 _
  · exact asks_pure 2 _

theorem asks_stringStep (rule : StringRule) (u : Unit) : Asks 3 (stringStep rule u) := by
  refine (asks_unit _ _).bind (k := 1) fun skipped => ?_
  split
  · exact asks_pure 1 _
  · refine (asks_sees _).bind (k := 0) fun stops => ?_
    split <;> exact asks_pure 0 _

theorem asks_lineOrStringStep (rule : StringRule) (u : Unit) :
    Asks 4 (lineOrStringStep rule u) := by
  refine asks_atLineEnd.bind (k := 3) fun ends => ?_
  split
  · exact asks_pure 3 _
  · refine (asks_unit _ _).bind (k := 1) fun skipped => ?_
    split
    · exact asks_pure 1 _
    · refine (asks_sees _).bind (k := 0) fun stops => ?_
      split <;> exact asks_pure 0 _

/-! ### Runs -/

/-- To take is to peek, and to advance over what is found. -/
theorem exists_calls_take (n : Nat) (h : Head) :
    ∃ calls, calls.length ≤ 2 ∧ ComesOf h.reader calls (take n h) ∧
      ∀ s h', take n h = .ok s h' → s ≠ [] ∧ h.reader.consumed calls = s := by
  obtain ⟨r, atLineStart⟩ := h
  unfold take look ask
  cases hlook : Reader.look n r with
  | error e r' =>
    have hanswer := Reader.answer_of_look_error hlook
    refine ⟨[.peek n], Nat.le_succ 1, ⟨?_, ?_⟩, fun s h' he => by cases he⟩
    · exact (congrArg Prod.snd hanswer).symm
    · intro error h' he
      cases he
      exact ⟨[], .peek n, rfl, congrArg Prod.fst hanswer⟩
  | ok s r' =>
    have hanswer := Reader.answer_of_look hlook
    cases s with
    | nil =>
      refine ⟨[.peek n], Nat.le_succ 1, ⟨?_, fun error h' he => by cases he⟩,
        fun s h' he => by cases he⟩
      exact (congrArg Prod.snd hanswer).symm
    | cons c s =>
      have hfront : c :: s <+: r'.ahead := (Reader.ahead_look hlook).2
      have htake : r'.ahead.take (c :: s).length = c :: s := (List.prefix_iff_eq_take.1 hfront).symm
      have hholds : r'.Holds (c :: s).length := .inl hfront.length_le
      obtain ⟨hadvance, hconsumed⟩ :=
        Reader.advance_of_holds (n := (c :: s).length) (Int.natCast_nonneg _) hholds
      rw [Int.toNat_natCast] at hadvance hconsumed
      have hpeeked : (r.answer (.peek n)).2 = r' := congrArg Prod.snd hanswer
      refine ⟨[.peek n, .advance (c :: s).length], Nat.le_refl 2,
        ⟨?_, fun error h' he => by cases he⟩, ?_⟩
      · show r'.consume (c :: s).length = ((r.answer (.peek n)).2.answer _).2
        rw [hpeeked, hadvance]
      · intro s' h' he
        cases he
        refine ⟨List.cons_ne_nil c s, ?_⟩
        show [] ++ ((r.answer (.peek n)).2.consumedBy _ ++ []) = c :: s
        rw [hpeeked, hconsumed, htake, List.nil_append, List.append_nil]

/-- A decision and the move after it come of `k + 2` calls at most, which consume what is taken. -/
theorem Asks.exists_calls_move {m : Scan α} {a : α} (hm : Asks k m) (hx : m h = .ok a h')
    (n : Nat) :
    ∃ calls, calls.length ≤ k + 2 ∧ ComesOf h.reader calls (take n h') ∧
      ∀ s h₂, take n h' = .ok s h₂ → s ≠ [] ∧ h.reader.consumed calls = s := by
  obtain ⟨asked, hlen, hnone, hcomes⟩ := hm h
  rw [hx] at hcomes
  obtain ⟨moved, hlen', hcomes', htaken⟩ := exists_calls_take n h'
  have hreader : h'.reader = h.reader.after asked := hcomes.reader_eq
  refine ⟨asked ++ moved, ?_, hcomes'.andThen hreader, ?_⟩
  · rw [List.length_append]
    omega
  · intro s h₂ ht
    rw [Reader.consumed_append, hnone, ← hreader]
    exact htaken s h₂ ht

/-- A run makes `k + 2` calls at most for each rune that it consumes, and `k + 2` for the decision
to end in place or for an error. -/
theorem exists_calls_run {choose : α → Scan (Decision α β)} (hc : ∀ a, Peeks (choose a))
    (hask : ∀ a, Asks k (choose a)) (a : α) (taken : Text) (h : Head) :
    ∃ calls, ComesOf h.reader calls (run choose hc a taken h) ∧
      calls.length ≤ (k + 2) * ((h.reader.consumed calls).length + 1) ∧
      ∀ s b h', run choose hc a taken h = .ok (s, b) h' →
        s = taken.reverse ++ h.reader.consumed calls ∧
        ((∀ a h b h', choose a h ≠ .ok (.stop b) h') →
          calls.length ≤ (k + 2) * (h.reader.consumed calls).length) := by
  have henough {calls : List Call} (r : Reader) (hlen : calls.length ≤ k + 2) :
      calls.length ≤ (k + 2) * ((r.consumed calls).length + 1) :=
    Nat.le_trans hlen (Nat.le_mul_of_pos_right _ (Nat.succ_pos _))
  fun_induction run choose hc a taken h with
  | case1 a taken h e h' hd =>
    obtain ⟨calls, hlen, -, hcomes⟩ := hask a h
    rw [hd] at hcomes
    exact ⟨calls, hcomes.error_imp, henough _ (by omega), fun s b h₁ he => by cases he⟩
  | case2 a taken h b h' hd =>
    obtain ⟨calls, hlen, hnone, hcomes⟩ := hask a h
    rw [hd] at hcomes
    refine ⟨calls, hcomes.ok_imp _, henough _ (by omega), ?_⟩
    intro s b' h₁ he
    cases he
    rw [hnone, List.append_nil]
    exact ⟨rfl, fun hnever => absurd hd (hnever a h b h')⟩
  | case3 a taken h n b h₁ hd e h₂ ht =>
    obtain ⟨calls, hlen, hcomes, -⟩ := (hask a).exists_calls_move hd n
    rw [ht] at hcomes
    exact ⟨calls, hcomes.error_imp, henough _ hlen, fun s b' h' he => by cases he⟩
  | case4 a taken h n b h₁ hd u h₂ ht =>
    obtain ⟨calls, hlen, hcomes, htaken⟩ := (hask a).exists_calls_move hd n
    rw [ht] at hcomes
    obtain ⟨hne, hconsumed⟩ := htaken u h₂ ht
    have hpos := List.length_pos_iff.2 hne
    refine ⟨calls, hcomes.ok_imp _, henough _ hlen, ?_⟩
    intro s b' h' he
    cases he
    rw [hconsumed]
    refine ⟨by simp, fun _ => Nat.le_trans hlen (Nat.le_mul_of_pos_right _ hpos)⟩
  | case5 a taken h n a' h₁ hd e h₂ ht =>
    obtain ⟨calls, hlen, hcomes, -⟩ := (hask a).exists_calls_move hd n
    rw [ht] at hcomes
    exact ⟨calls, hcomes.error_imp, henough _ hlen, fun s b' h' he => by cases he⟩
  | case6 a taken h n a' h₁ hd u h₂ ht hlt ih =>
    obtain ⟨calls, hlen, hcomes, htaken⟩ := (hask a).exists_calls_move hd n
    rw [ht] at hcomes
    obtain ⟨hne, hconsumed⟩ := htaken u h₂ ht
    have hreader : h₂.reader = h.reader.after calls := hcomes.reader_eq
    obtain ⟨more, hcomes', hlen', hok⟩ := ih
    have hpos := List.length_pos_iff.2 hne
    have hpaid : k + 2 ≤ (k + 2) * u.length := Nat.le_mul_of_pos_right _ hpos
    refine ⟨calls ++ more, hcomes'.andThen hreader, ?_, ?_⟩
    · rw [Reader.consumed_append, hconsumed, ← hreader, List.length_append, List.length_append,
        Nat.add_assoc, Nat.mul_add]
      omega
    · intro s b h' he
      obtain ⟨hs, hpaid'⟩ := hok s b h' he
      rw [Reader.consumed_append, hconsumed, ← hreader]
      refine ⟨by rw [hs]; simp, fun hnever => ?_⟩
      have := hpaid' hnever
      rw [List.length_append, List.length_append, Nat.mul_add]
      omega

end Head

/-! ### Comments -/

variable {rules : Rules} {h h' : Head} {c : Comment} {calls : List Call}

/-- A bound on the calls that a scan makes for each rune: twice the peeks for a decision in code, or
in what an opening leads to, with the two calls that move. -/
def Rules.cost (rules : Rules) : Nat :=
  2 * (rules.lines.length + (rules.strings.length + rules.blocks.length) + 6)

/-- A result that a run leads to: a comment in it is made of the start and of what the run
consumes. -/
theorem exists_calls_of_run {α β : Type} {k : Nat} {choose : α → Scan (Decision α β)}
    {a : α} {start : Text} {x : EStateM.Result Halt Head (Option Comment)}
    (hc : ∀ a, Peeks (choose a)) (hask : ∀ a, Asks k (choose a)) (hk : k + 2 ≤ 6)
    (herror : ∀ e h', run choose hc a [] h = .error e h' → x = .error e h')
    (hok : ∀ s b h', run choose hc a [] h = .ok (s, b) h' →
      ∃ found, x = .ok found h' ∧ ∀ c ∈ found, c.text = start ++ s ∧ c.form.start? = some start) :
    ∃ calls, ComesOf h.reader calls x ∧
      calls.length ≤ 6 * ((h.reader.consumed calls).length + 1) ∧
      ∀ c h', x = .ok (some c) h' →
        c.text = start ++ h.reader.consumed calls ∧ c.form.start? = some start := by
  obtain ⟨calls, hcomes, hlen, htext⟩ := exists_calls_run hc hask a [] h
  have hfew := Nat.le_trans hlen (Nat.mul_le_mul_right _ hk)
  refine ⟨calls, ?_⟩
  cases hrun : run choose hc a [] h with
  | error e h₁ =>
    rw [hrun] at hcomes
    rw [herror e h₁ hrun]
    exact ⟨hcomes.error_imp, hfew, fun c h' he => by cases he⟩
  | ok out h₁ =>
    rw [hrun] at hcomes
    obtain ⟨found, hx, hfound⟩ := hok out.1 out.2 h₁ hrun
    obtain ⟨hs, -⟩ := htext out.1 out.2 h₁ hrun
    rw [hx]
    refine ⟨hcomes.ok_imp found, hfew, ?_⟩
    intro c h' hc
    cases hc
    rw [← List.nil_append (h.reader.consumed calls), ← List.reverse_nil, ← hs]
    exact hfound c rfl

/-- What an opening leads to is read by six calls at most for each rune, and a comment is made of
the start and of what is consumed. -/
theorem Opening.exists_calls_body (o : Opening) (line : Nat) (h : Head) :
    ∃ calls, ComesOf h.reader calls (o.body line h) ∧
      calls.length ≤ 6 * ((h.reader.consumed calls).length + 1) ∧
      ∀ c h', o.body line h = .ok (some c) h' →
        c.text = o.start ++ h.reader.consumed calls ∧ c.form.start? = some o.start := by
  cases o with
  | line rule =>
    refine exists_calls_of_run peeks_lineStep asks_lineStep (a := ()) (by decide) ?_ ?_
    · intro e h' hrun
      simp only [body, hrun]
    · intro s b h' hrun
      refine ⟨some ⟨rule.start ++ s, line, .line (some rule)⟩, ?_, forall_mem_some ⟨rfl, rfl⟩⟩
      simp only [body, hrun]
  | block rule =>
    refine exists_calls_of_run (peeks_blockStep rule) (asks_blockStep rule) (a := 0) (by decide)
      ?_ ?_
    · intro e h' hrun
      simp only [body, hrun]
    · intro s b h' hrun
      refine ⟨some ⟨rule.start ++ s, line, .block (some rule)⟩, ?_, forall_mem_some ⟨rfl, rfl⟩⟩
      simp only [body, hrun]
  | string rule =>
    refine exists_calls_of_run (peeks_stringStep rule) (asks_stringStep rule) (a := ())
      (by decide) ?_ ?_
    · intro e h' hrun
      simp only [body, hrun]
    · intro s b h' hrun
      refine ⟨none, ?_, fun c hc => by cases hc⟩
      simp only [body, hrun]
  | lineOrString rule literal =>
    refine exists_calls_of_run (peeks_lineOrStringStep literal) (asks_lineOrStringStep literal)
      (a := ()) (by decide) ?_ ?_
    · intro e h' hrun
      simp only [body, hrun]
    · intro s b h' hrun
      cases b with
      | true =>
        refine ⟨some ⟨rule.start ++ s, line, .line (some rule)⟩, ?_, forall_mem_some ⟨rfl, rfl⟩⟩
        simp only [body, hrun]
      | false =>
        refine ⟨none, ?_, fun c hc => by cases hc⟩
        simp only [body, hrun]

/-- Code is read by calls whose number is bounded by what they consume, and it ends with the start
of what it leads to. -/
theorem exists_calls_code (rules : Rules) (h : Head) :
    ∃ calls, ComesOf h.reader calls (run (codeStep rules) (peeks_codeStep rules) () [] h) ∧
      calls.length ≤ rules.cost * ((h.reader.consumed calls).length + 1) ∧
      ∀ s o line h', run (codeStep rules) (peeks_codeStep rules) () [] h = .ok (s, o, line) h' →
        o.start <:+ h.reader.consumed calls ∧
        calls.length + 6 ≤ rules.cost * (h.reader.consumed calls).length := by
  obtain ⟨calls, hcomes, hlen, hok⟩ :=
    exists_calls_run (peeks_codeStep rules) (asks_codeStep rules) () [] h
  refine ⟨calls, hcomes, Nat.le_trans hlen (Nat.mul_le_mul_right _ ?_), ?_⟩
  · unfold Rules.cost
    omega
  · intro s o line h' hrun
    obtain ⟨hs, hpaid⟩ := hok s (o, line) h' hrun
    obtain ⟨-, hsuffix⟩ := of_run_code hrun
    rw [List.reverse_nil, List.nil_append] at hs
    rw [hs] at hsuffix
    refine ⟨hsuffix, ?_⟩
    -- A rune at least has been consumed, which leaves six calls to spare.
    have hpos : 0 < (h.reader.consumed calls).length :=
      Nat.lt_of_lt_of_le (List.length_pos_iff.2 o.start_ne_nil) hsuffix.length_le
    have hlen := hpaid fun a h b h' => codeStep_ne_stop rules a h b h'
    have hspare : 6 ≤ 6 * (h.reader.consumed calls).length := Nat.le_mul_of_pos_right 6 hpos
    have hmono := Nat.mul_le_mul_right (h.reader.consumed calls).length
      (show rules.lines.length + (rules.strings.length + rules.blocks.length) + 2 + 6 ≤ rules.cost
        by unfold Rules.cost; omega)
    rw [Nat.add_mul] at hmono
    omega

/-- Code and what it leads to take calls whose number is bounded by what they consume. A comment is
at the end of that, and begins with the start of its rule. -/
theorem exists_calls_opened {s : Text} {o : Opening} {line : Nat}
    (hcode : run (codeStep rules) (peeks_codeStep rules) () [] h = .ok (s, o, line) h') :
    ∃ calls, ComesOf h.reader calls (o.body line h') ∧
      calls.length ≤ rules.cost * (h.reader.consumed calls).length ∧
      ∀ c h₁, o.body line h' = .ok (some c) h₁ →
        c.text <:+ h.reader.consumed calls ∧
        ∃ start, c.form.start? = some start ∧ start ≠ [] ∧ start <+: c.text := by
  obtain ⟨calls, hcomes, -, hok⟩ := exists_calls_code rules h
  obtain ⟨⟨skipped, hskipped⟩, hpaid⟩ := hok s o line h' hcode
  rw [hcode] at hcomes
  have hreader : h'.reader = h.reader.after calls := hcomes.reader_eq
  obtain ⟨more, hcomes', hlen, htext⟩ := o.exists_calls_body line h'
  have hconsumed : h.reader.consumed (calls ++ more) =
      h.reader.consumed calls ++ h'.reader.consumed more := by
    rw [Reader.consumed_append, ← hreader]
  refine ⟨calls ++ more, hcomes'.andThen hreader, ?_, ?_⟩
  · have hcost : 6 * (h'.reader.consumed more).length ≤
        rules.cost * (h'.reader.consumed more).length :=
      Nat.mul_le_mul_right _ (by unfold Rules.cost; omega)
    rw [hconsumed, List.length_append, List.length_append, Nat.mul_add]
    omega
  · intro c h₁ hc
    obtain ⟨hc', hform⟩ := htext c h₁ hc
    refine ⟨⟨skipped, ?_⟩, o.start, hform, o.start_ne_nil, ?_⟩
    · rw [hconsumed, ← hskipped, hc', List.append_assoc]
    · rw [hc']
      exact List.prefix_append _ _

/-- Going on to the next comment takes calls whose number is bounded by what they consume. What is
consumed ends with the comment, and the comment begins with the start of its rule. -/
theorem exists_calls_nextComment (rules : Rules) (h : Head) :
    ∃ calls, ComesOf h.reader calls (nextComment rules h) ∧
      calls.length ≤ rules.cost * ((h.reader.consumed calls).length + 1) ∧
      ∀ c h', nextComment rules h = .ok c h' →
        c.text <:+ h.reader.consumed calls ∧
        ∃ start, c.form.start? = some start ∧ start ≠ [] ∧ start <+: c.text := by
  fun_induction nextComment rules h with
  | case1 h e h₁ hc =>
    obtain ⟨calls, hcomes, hlen, -⟩ := exists_calls_code rules h
    rw [hc] at hcomes
    exact ⟨calls, hcomes.error_imp, hlen, fun c h' he => by cases he⟩
  | case2 h s o line h₁ hc e h₂ hb =>
    obtain ⟨calls, hcomes, hlen, -⟩ := exists_calls_opened hc
    rw [hb] at hcomes
    refine ⟨calls, hcomes.error_imp, ?_, fun c h' he => by cases he⟩
    exact Nat.le_trans hlen (Nat.mul_le_mul_left _ (Nat.le_succ _))
  | case3 h s o line h₁ hc c h₂ hb =>
    obtain ⟨calls, hcomes, hlen, hcomment⟩ := exists_calls_opened hc
    have hfound := hcomment c h₂ hb
    rw [hb] at hcomes
    refine ⟨calls, hcomes.ok_imp c, Nat.le_trans hlen (Nat.mul_le_mul_left _ (Nat.le_succ _)), ?_⟩
    intro c' h' he
    cases he
    exact hfound
  | case4 h s o line h₁ hc h₂ hb hlt ih =>
    obtain ⟨calls, hcomes, hlen, -⟩ := exists_calls_opened hc
    rw [hb] at hcomes
    have hreader : h₂.reader = h.reader.after calls := hcomes.reader_eq
    obtain ⟨more, hcomes', hlen', htext⟩ := ih
    have hconsumed : h.reader.consumed (calls ++ more) =
        h.reader.consumed calls ++ h₂.reader.consumed more := by
      rw [Reader.consumed_append, ← hreader]
    refine ⟨calls ++ more, hcomes'.andThen hreader, ?_, ?_⟩
    · rw [hconsumed, List.length_append, List.length_append, Nat.add_assoc, Nat.mul_add]
      omega
    · intro c h' he
      obtain ⟨hsuffix, hstart⟩ := htext c h' he
      refine ⟨?_, hstart⟩
      rw [hconsumed]
      exact hsuffix.trans (List.suffix_append _ _)

/-! ### Scans -/

namespace Scanner

variable {s : Scanner} {n : Nat}

theorem after_succ (s : Scanner) (n : Nat) : s.after (n + 1) = (s.after n).next.2 := by
  induction n generalizing s with
  | zero => rfl
  | succ n ih => exact ih s.next.2

/-- The calls that one call for a comment makes, the comment among what they consume, and the error
that it may put down. -/
theorem exists_calls_next (s : Scanner) :
    ∃ calls, s.next.2.rules = s.rules ∧ s.next.2.head.reader = s.head.reader.after calls ∧
      calls.length ≤ s.rules.cost * ((s.head.reader.consumed calls).length + 1) ∧
      (∀ c, s.next.1 = .ok (some c) → c.text <:+ s.head.reader.consumed calls ∧
        ∃ start, c.form.start? = some start ∧ start ≠ [] ∧ start <+: c.text) ∧
      (s.next.2.error = s.error ∨ ∃ e, s.next.2.error = some e ∧ s.next.2.finished = true ∧
        s.head.reader.Raises calls e) := by
  by_cases hfinished : s.finished = true
  · rw [next_of_finished hfinished]
    exact ⟨[], rfl, rfl, Nat.zero_le _, (fun c hc => by cases hc), .inl rfl⟩
  · obtain ⟨calls, hcomes, hlen, hcomment⟩ := exists_calls_nextComment s.rules s.head
    refine ⟨calls, ?_⟩
    unfold next
    rw [if_neg hfinished]
    cases hnext : nextComment s.rules s.head with
    | ok c h' =>
      rw [hnext] at hcomes
      refine ⟨rfl, hcomes.reader_eq, hlen, ?_, .inl rfl⟩
      intro c' hc'
      cases hc'
      exact hcomment c h' hnext
    | error e h' =>
      rw [hnext] at hcomes
      cases e with
      | endOfText => exact ⟨rfl, hcomes.reader_eq, hlen, (fun c hc => by cases hc), .inl rfl⟩
      | failed e =>
        dsimp only
        by_cases hends : e.endsScan = true
        · rw [if_pos hends]
          refine ⟨rfl, hcomes.reader_eq, hlen, (fun c hc => by cases hc), .inr ⟨e, rfl, rfl, ?_⟩⟩
          exact hcomes.raises e h' rfl
        · rw [if_neg hends]
          exact ⟨rfl, hcomes.reader_eq, hlen, (fun c hc => by cases hc), .inl rfl⟩

/-- An error that ended a scan is the last that its calls to the reader raised. -/
theorem exists_calls_after (hs : s.error = none) (n : Nat) :
    ∃ calls, (s.after n).head.reader = s.head.reader.after calls ∧
      ∀ e, (s.after n).error = some e →
        (s.after n).finished = true ∧ s.head.reader.Raises calls e := by
  induction n with
  | zero =>
    refine ⟨[], rfl, ?_⟩
    intro e he
    rw [after, hs] at he
    cases he
  | succ n ih =>
    obtain ⟨calls, hreader, herror⟩ := ih
    rw [after_succ]
    by_cases hfinished : (s.after n).finished = true
    · rw [next_of_finished hfinished]
      exact ⟨calls, hreader, herror⟩
    · obtain ⟨more, -, hreader', -, -, hsame | ⟨e, he, hstop, hraises⟩⟩ :=
        exists_calls_next (s.after n)
      · refine ⟨calls ++ more, ?_, ?_⟩
        · rw [hreader', hreader, Reader.after_append]
        · -- An error that stays was there before, when the scan had not stopped.
          intro e he
          rw [hsame] at he
          exact absurd (herror e he).1 hfinished
      · refine ⟨calls ++ more, ?_, ?_⟩
        · rw [hreader', hreader, Reader.after_append]
        · intro e' he'
          rw [he] at he'
          cases he'
          refine ⟨hstop, Reader.Raises.append ?_⟩
          rwa [← hreader]

end Scanner

end SourceNotes
