/-
A scan goes through the segments of the text.

* **`Head.reaches_run`**, **`Head.fails_run`** — repeating the steps of a scan moves
  over what its decisions read, and stops if they read nothing;
* **`nextComment_spec`** — going on to the next comment moves over the segments up to
  it;
* **`Scanner.drain_eq_segmentation`** — the comments of a scan are those among the
  segments of the text;
* **`Scanner.drain_prefix_segmentation`**, **`Scanner.drain_of_hugeChunk`** — with a
  reader that cannot look far enough or take its chunks there are fewer, or none.
-/
import SourceNotes.Proofs.Comment.Decides
import SourceNotes.Comment.Scanner
import SourceNotes.Language.Table

namespace SourceNotes

open Head Text Charset

variable {σ : Source}

/-! ### Runs -/

namespace Head

variable {α β : Type} {choose : α → Scan (Decision α β)} {hc : ∀ a, Peeks (choose a)}
  {d : Decider α β} {a : α} {before after s rest : Text} {b : β} {h : Head}

/-- A run moves over what its decisions read. -/
theorem reaches_run (hc : ∀ a, Peeks (choose a)) (hd : Decides σ choose d)
    (hreads : Reads d σ.cut a before s rest b) (taken : Text) (hat : h.At σ before (s ++ rest)) :
    Reaches σ (run choose hc a taken) h (taken.reverse ++ s, b) (before ++ s) rest := by
  induction hreads generalizing taken h with
  | stop hdec hcut =>
    refine ((hd.shows _).reaches hat hcut).andThen (fun hok hat₁ => ?_) run_of_error
    rw [List.nil_append] at hok hat₁
    rw [hdec] at hok
    rw [List.append_nil, List.append_nil]
    exact .inl ⟨_, run_of_stop hok, hat₁⟩
  | @last a before s rest b hdec hs =>
    have hne : σ.cut = true → s ++ rest ≠ [] := fun _ => List.append_ne_nil_of_left_ne_nil hs _
    refine ((hd.shows _).reaches hat hne).andThen (fun hok hat₁ => ?_) run_of_error
    rw [hdec] at hok
    refine (reaches_take hat₁ hs (hd.moves_last hdec).allowed).andThen
      (fun htake hat₂ => .inl ⟨_, ?_, hat₂⟩) fun htake => ?_
    · rw [run_of_last hok, htake]
      simp
    · rw [run_of_last hok, htake]
  | @more a a' before u s rest b hdec hu _ ih =>
    rw [List.append_assoc] at hat
    have hne : σ.cut = true → u ++ (s ++ rest) ≠ [] :=
      fun _ => List.append_ne_nil_of_left_ne_nil hu _
    refine ((hd.shows _).reaches hat hne).andThen (fun hok hat₁ => ?_) run_of_error
    rw [hdec] at hok
    refine (reaches_take hat₁ hu (hd.moves_more hdec).allowed).andThen
      (fun {h₂} htake hat₂ => ?_) fun htake => ?_
    · -- The run goes on behind `u` with what it has moved over put on top.
      have hrun : run choose hc a taken h = run choose hc a' (u.reverse ++ taken) h₂ := by
        rw [run_of_more hok, htake]
      refine (ih (u.reverse ++ taken) hat₂).andThen (fun hrest hat₃ => ?_) hrun.trans
      rw [List.append_assoc] at hat₃
      refine .inl ⟨_, ?_, hat₃⟩
      rw [hrun, hrest]
      simp
    · rw [run_of_more hok, htake]

/-- A run whose decisions read nothing stops behind all of the text. -/
theorem fails_run (hc : ∀ a, Peeks (choose a)) (hd : Decides σ choose d) (taken : Text)
    (hat : h.At σ before after)
    (hno : ∀ s rest b, after = s ++ rest → ¬ Reads d σ.cut a before s rest b) :
    Fails σ (run choose hc a taken) h := by
  -- By the length of what comes: a run that never fails would have read something.
  induction hn : after.length using Nat.strongRecOn generalizing a before after taken h with
  | ind n ih =>
    subst hn
    rcases hd.shows a hat with ⟨h₁, hok, hat₁⟩ | ⟨hfail, -⟩
    · -- A move that the text is too short for is one behind all of it.
      have hmove {n : Nat} (hm : Moves σ after n) :
          Fails σ (take n) h₁ ∨ ∃ u rest, u ≠ [] ∧ u.length = n ∧ after = u ++ rest := by
        rcases after with _ | ⟨c, after⟩
        · exact .inl (fails_take hat₁ hm.pos hm.allowed)
        · have hlen := hm.le_length (List.cons_ne_nil _ _)
          have hpos := hm.pos
          have htake : ((c :: after).take n).length = n := by
            rw [List.length_take]; omega
          refine .inr ⟨_, _, ?_, htake, (List.take_append_drop n _).symm⟩
          exact List.length_pos_iff.1 (by omega)
      cases hdec : d a before after with
      | stop b =>
        by_cases hend : σ.cut = true ∧ after = []
        · obtain ⟨hcut, rfl⟩ := hend
          obtain ⟨e, h', herr, -⟩ := hd.fails_of_stop hat hcut hdec
          rw [hok] at herr
          cases herr
        · exact absurd (.stop hdec fun hcut hnil => hend ⟨hcut, hnil⟩) (hno [] after b rfl)
      | last n b =>
        rw [hdec] at hok
        rcases hmove (hd.moves_last hdec) with hfail | ⟨u, rest, hu, rfl, rfl⟩
        · exact hfail.imp fun herr => by rw [run_of_last hok, herr]
        · exact absurd (.last hdec hu) (hno u rest b rfl)
      | more n a' =>
        have hm := hd.moves_more hdec
        rw [hdec] at hok
        rcases hmove hm with hfail | ⟨u, rest, hu, rfl, rfl⟩
        · exact hfail.imp fun herr => by rw [run_of_more hok, herr]
        · rcases reaches_take hat₁ hu hm.allowed with ⟨h₂, htake, hat₂⟩ | ⟨hfail, -⟩
          · have hlt : rest.length < (u ++ rest).length := by
              have := List.length_pos_iff.2 hu
              rw [List.length_append]
              omega
            have hrest := ih _ hlt (u.reverse ++ taken) hat₂
              (fun s rest' b hs hr => hno (u ++ s) rest' b (by rw [hs, List.append_assoc])
                (.more (by rw [← hs]; exact hdec) hu hr)) rfl
            refine hrest.imp fun herr => ?_
            rw [run_of_more hok, htake]
            exact herr
          · exact hfail.imp fun herr => by rw [run_of_more hok, herr]
    · exact hfail.imp run_of_error

/-- The answer of a run, `s` put before its text. -/
def prepend (s : Text) : EStateM.Result Halt Head (Text × β) → EStateM.Result Halt Head (Text × β)
  | .error e h => .error e h
  | .ok (t, b) h => .ok (s ++ t, b) h

/-- What a run has moved over before shows up in the text that it answers, and nowhere else. -/
theorem run_taken (taken : Text) :
    run choose hc a taken h = prepend taken.reverse (run choose hc a [] h) := by
  -- `run` goes on only with fewer runes remaining, whatever it has moved over.
  induction hn : h.remaining using Nat.strongRecOn generalizing a taken h with
  | ind n ih =>
    subst hn
    cases hdec : choose a h with
    | error e h₁ => rw [run_of_error hdec, run_of_error hdec]; rfl
    | ok decision h₁ =>
      have hpeeks := hc a h
      rw [hdec] at hpeeks
      cases decision with
      | stop b => rw [run_of_stop hdec, run_of_stop hdec]; simp [prepend]
      | last n b =>
        rw [run_of_last hdec, run_of_last hdec]
        cases take n h₁ <;> simp [prepend]
      | more n a' =>
        rw [run_of_more hdec, run_of_more hdec]
        cases htake : take n h₁ with
        | error e h₂ => rfl
        | ok s h₂ =>
          have hlt := Nat.lt_of_lt_of_le (remaining_take_lt htake) hpeeks
          show run choose hc a' (s.reverse ++ taken) h₂ =
            prepend taken.reverse (run choose hc a' (s.reverse ++ []) h₂)
          rw [ih _ hlt (s.reverse ++ taken) rfl, ih _ hlt (s.reverse ++ []) rfl]
          cases run choose hc a' [] h₂ <;> simp [prepend]

end Head

/-! ### From one comment to the next -/

variable {rules : Rules} {before text s rest : Text} {o : Opening} {h : Head}
  {segments : List Segment}

/-- Behind a start that wins, the comment or the literal is moved over up to its end. -/
theorem Opening.reaches_body (hserves : σ.Serves rules) (hrules : o.IsOf rules)
    {form : Option Comment.Form} (hclose : o.Closes σ.cut before s rest form) (line : Nat)
    (hat : h.At σ before (s ++ rest)) :
    Reaches σ (o.body line) h (form.map fun form => ⟨o.start ++ s, line, form⟩) (before ++ s)
      rest := by
  have htwo := hserves.two
  cases hclose with
  | line hreads =>
    exact (reaches_run peeks_lineStep (decides_lineStep htwo) hreads [] hat).andThen
      (fun hrun hat' => .inl ⟨_, by simp only [body, hrun]; rfl, hat'⟩)
      fun herr => by simp only [body, herr]
  | block hreads =>
    have hdecides := decides_blockStep htwo (hserves.block hrules)
    exact (reaches_run (peeks_blockStep _) hdecides hreads [] hat).andThen
      (fun hrun hat' => .inl ⟨_, by simp only [body, hrun]; rfl, hat'⟩)
      fun herr => by simp only [body, herr]
  | string hreads =>
    have hdecides := decides_stringStep htwo (hserves.string hrules)
    exact (reaches_run (peeks_stringStep _) hdecides hreads [] hat).andThen
      (fun hrun hat' => .inl ⟨_, by simp only [body, hrun]; rfl, hat'⟩)
      fun herr => by simp only [body, herr]
  | lineNotString hreads =>
    have hdecides := decides_lineOrStringStep htwo (hserves.string hrules.2)
    exact (reaches_run (peeks_lineOrStringStep _) hdecides hreads [] hat).andThen
      (fun hrun hat' => .inl ⟨_, by simp only [body, hrun]; rfl, hat'⟩)
      fun herr => by simp only [body, herr]
  | stringNotLine hreads =>
    have hdecides := decides_lineOrStringStep htwo (hserves.string hrules.2)
    exact (reaches_run (peeks_lineOrStringStep _) hdecides hreads [] hat).andThen
      (fun hrun hat' => .inl ⟨_, by simp only [body, hrun]; rfl, hat'⟩)
      fun herr => by simp only [body, herr]

/-- Behind a start that wins, the scan stops if no end comes. -/
theorem Opening.fails_body (hserves : σ.Serves rules) (hrules : o.IsOf rules)
    (hopen : ∀ s' rest form, s = s' ++ rest → ¬ o.Closes σ.cut before s' rest form) (line : Nat)
    (hat : h.At σ before s) : Fails σ (o.body line) h := by
  have htwo := hserves.two
  cases o with
  | line rule =>
    have hfail := fails_run peeks_lineStep (decides_lineStep htwo) [] hat
      fun s' rest b hs hr => hopen s' rest _ hs (.line hr)
    exact hfail.imp fun herr => by simp only [body, herr]
  | block rule =>
    have hdecides := decides_blockStep htwo (hserves.block hrules)
    have hfail := fails_run (peeks_blockStep rule) hdecides [] hat
      fun s' rest b hs hr => hopen s' rest _ hs (.block hr)
    exact hfail.imp fun herr => by simp only [body, herr]
  | string rule =>
    have hdecides := decides_stringStep htwo (hserves.string hrules)
    have hfail := fails_run (peeks_stringStep rule) hdecides [] hat
      fun s' rest b hs hr => hopen s' rest _ hs (.string hr)
    exact hfail.imp fun herr => by simp only [body, herr]
  | lineOrString rule literal =>
    have hdecides := decides_lineOrStringStep htwo (hserves.string hrules.2)
    have hno (s' rest : Text) (b : Bool) (hs : s = s' ++ rest) :
        ¬ Reads (decideLineOrString literal) σ.cut () before s' rest b := by
      intro hr
      cases b with
      | true => exact hopen s' rest _ hs (.lineNotString hr)
      | false => exact hopen s' rest _ hs (.stringNotLine hr)
    have hfail := fails_run (peeks_lineOrStringStep literal) hdecides [] hat hno
    exact hfail.imp fun herr => by simp only [body, herr]

/-- A run in code goes over a rune where nothing begins, and answers as it does behind it. -/
theorem exists_run_code_of_none (hserves : σ.Serves rules) {c : Char}
    (hwin : rules.winnerAt before (c :: rest) = none) (hat : h.At σ before (c :: rest)) :
    (∃ h', h'.At σ (before ++ [c]) rest ∧
      run (codeStep rules) (peeks_codeStep rules) () [] h =
        prepend [c] (run (codeStep rules) (peeks_codeStep rules) () [] h')) ∨
    Fails σ (run (codeStep rules) (peeks_codeStep rules) () []) h ∧ ¬ σ.able := by
  have hdec : decideCode rules () before (c :: rest) = .more 1 () := by rw [decideCode, hwin]
  have hne : σ.cut = true → c :: rest ≠ [] := fun _ => List.cons_ne_nil _ _
  rcases ((decides_codeStep hserves).shows ()).reaches hat hne with ⟨h₁, hok, hat₁⟩ | ⟨hfail, hable⟩
  · rw [hdec] at hok
    rcases reaches_take (u := [c]) hat₁ (List.cons_ne_nil _ _) hserves.two.one with
      ⟨h₂, htake, hat₂⟩ | ⟨hfail, hable⟩
    · have hone : take 1 h₁ = .ok [c] h₂ := htake
      refine .inl ⟨h₂, hat₂, ?_⟩
      rw [run_of_more hok, hone]
      exact run_taken [c]
    · refine .inr ⟨hfail.imp fun {e h₂} htake => ?_, hable⟩
      have hone : take 1 h₁ = .error e h₂ := htake
      rw [run_of_more hok, hone]
  · exact .inr ⟨hfail.imp run_of_error, hable⟩

/-- Behind all of the text a run in code stops. -/
theorem fails_run_code (hserves : σ.Serves rules) (hat : h.At σ before []) :
    Fails σ (run (codeStep rules) (peeks_codeStep rules) () []) h := by
  refine fails_run (peeks_codeStep rules) (decides_codeStep hserves) [] hat
    fun s rest b hs hreads => ?_
  have hnil := List.append_eq_nil_iff.1 hs.symm
  -- Nothing is there to be moved over, and in code there is no end in place.
  cases hreads with
  | stop hdec _ =>
    rw [decideCode, hnil.2, Rules.winnerAt_nil] at hdec
    cases hdec
  | last _ hne => exact hne hnil.1
  | more _ hne _ => exact hne (List.append_eq_nil_iff.1 hnil.1).1

/-- A rune of code does not matter to the next comment. -/
theorem nextComment_of_prepend {h' : Head} {u : Text}
    (hrun : run (codeStep rules) (peeks_codeStep rules) () [] h =
      prepend u (run (codeStep rules) (peeks_codeStep rules) () [] h')) :
    nextComment rules h = nextComment rules h' := by
  cases hrun' : run (codeStep rules) (peeks_codeStep rules) () [] h' with
  | error e h₁ =>
    rw [hrun'] at hrun
    rw [nextComment_of_error hrun, nextComment_of_error hrun']
  | ok out h₁ =>
    obtain ⟨t, o, line⟩ := out
    rw [hrun'] at hrun
    rw [nextComment_of_opening hrun, nextComment_of_opening hrun']

/-- Where something wins, a run in code moves over its start. -/
theorem reaches_run_code (hserves : σ.Serves rules)
    (hwin : rules.winnerAt before (o.start ++ s) = some o) (hat : h.At σ before (o.start ++ s)) :
    Reaches σ (run (codeStep rules) (peeks_codeStep rules) () []) h
      (o.start, o, 1 + before.count '\n') (before ++ o.start) s := by
  have hdec : decideCode rules () before (o.start ++ s) =
      .last o.start.length (o, 1 + before.count '\n') := by rw [decideCode, hwin]
  exact reaches_run (peeks_codeStep rules) (decides_codeStep hserves)
    (.last hdec (Opening.start_ne_nil _)) [] hat

/-- The next comment is the first among the segments to come, and the scan goes on behind it.
A scan by a reader that is able to answer stops only where there is none. -/
theorem nextComment_spec (hserves : σ.Serves rules)
    (hseg : Segmentation rules σ.cut before text segments) (hat : h.At σ before text) :
    (∃ c more before' text' h', nextComment rules h = .ok c h' ∧ h'.At σ before' text' ∧
      Segmentation rules σ.cut before' text' more ∧
      commentsOf segments = c :: commentsOf more) ∨
    Fails σ (nextComment rules) h ∧ (σ.able → commentsOf segments = []) := by
  -- By the segmentation: code and literals are passed by, a comment is the answer.
  induction hseg generalizing h with
  | done => exact .inr ⟨(fails_run_code hserves hat).imp nextComment_of_error, fun _ => rfl⟩
  | @code before rest c segments hwin hnext ih =>
    rcases exists_run_code_of_none hserves hwin hat with ⟨h', hat', hrun⟩ | ⟨hfail, hable⟩
    · unfold Fails
      rw [nextComment_of_prepend hrun]
      exact ih hat'
    · exact .inr ⟨hfail.imp nextComment_of_error, fun h => absurd h hable⟩
  | @closed before s rest o form segments hwin hclose hnext ih =>
    rcases reaches_run_code hserves hwin hat with ⟨h₁, hrun, hat₁⟩ | ⟨hfail, hable⟩
    · rcases Opening.reaches_body hserves (Opening.isOf_of_winnerAt hwin) hclose
        (1 + before.count '\n') hat₁ with ⟨h₂, hbody, hat₂⟩ | ⟨hfail, hable⟩
      · rw [List.append_assoc] at hat₂
        cases form with
        | none =>
          -- A literal: the next comment comes behind it.
          have hskip : nextComment rules h = nextComment rules h₂ := by
            rw [nextComment_of_opening hrun, hbody]
            rfl
          unfold Fails
          rw [hskip]
          exact ih hat₂
        | some form =>
          refine .inl ⟨_, segments, _, rest, h₂, ?_, hat₂, hnext, rfl⟩
          rw [nextComment_of_opening hrun, hbody]
          rfl
      · refine .inr ⟨hfail.imp fun hbody => ?_, fun h => absurd h hable⟩
        rw [nextComment_of_opening hrun, hbody]
    · exact .inr ⟨hfail.imp nextComment_of_error, fun h => absurd h hable⟩
  | @lost before s o hwin hopen =>
    -- The scan stops inside what has no end, and the rest has no comment.
    refine .inr ⟨?_, fun _ => rfl⟩
    rcases reaches_run_code hserves hwin hat with ⟨h₁, hrun, hat₁⟩ | ⟨hfail, -⟩
    · have hfail := Opening.fails_body hserves (Opening.isOf_of_winnerAt hwin) hopen
        (1 + before.count '\n') hat₁
      exact hfail.imp fun hbody => by rw [nextComment_of_opening hrun, hbody]
    · exact hfail.imp nextComment_of_error

/-! ### A whole scan -/

namespace Scanner

/-- The scan goes on from a place in the text. -/
structure GoesOn (σ : Source) (before after : Text) (s : Scanner) : Prop where
  not_finished : s.finished = false
  no_error : s.error = none
  at_head : s.head.At σ before after

/-- The scan is at its end, with the fault as its error if there is one. -/
def StoppedAt (σ : Source) (s : Scanner) : Prop :=
  s.finished = true ∧
    match σ.fault with
    | none => s.error = none
    | some f => ∃ line, s.error = some (.undecodable σ.charsetName f line)

variable {s : Scanner}

theorem next_of_comment (hs : s.finished = false) {c : Comment} {h' : Head}
    (hnext : nextComment s.rules s.head = .ok c h') :
    s.next = (.ok (some c), { s with head := h' }) := by
  rw [next, hs, hnext]
  rfl

/-- A scan that stops behind all of the text says so. -/
theorem next_of_ends (hs : s.finished = false) (herr : s.error = none) {e : Halt} {h' : Head}
    (hnext : nextComment s.rules s.head = .error e h') (he : σ.Ends e) :
    ∃ s', s.next = (.ok none, s') ∧ s'.StoppedAt σ := by
  rw [next, hs, hnext]
  unfold Source.Ends at he
  unfold StoppedAt
  cases hfault : σ.fault with
  | none =>
    rw [hfault] at he
    subst he
    exact ⟨_, rfl, rfl, herr⟩
  | some f =>
    rw [hfault] at he
    obtain ⟨line, rfl⟩ := he
    exact ⟨_, rfl, rfl, line, rfl⟩

/-- A scan that stops delivers nothing more. -/
theorem drain_of_nextComment_error {e : Halt} {h' : Head}
    (hnext : nextComment s.rules s.head = .error e h') : s.drain.1 = [] := by
  cases hs : s.finished with
  | true =>
    have hstop : s.next = (.ok none, s) := by rw [next, hs]; rfl
    rw [drain_of_none hstop]
  | false =>
    cases e with
    | endOfText =>
      have hstop : s.next = (.ok none, { s with head := h', finished := true }) := by
        rw [next, hs, hnext]; rfl
      rw [drain_of_none hstop]
    | failed e =>
      by_cases hend : e.endsScan = true
      · have hstop : s.next =
            (.ok none, { s with head := h', finished := true, error := some e }) := by
          rw [next, hs, hnext]; exact if_pos hend
        rw [drain_of_none hstop]
      · have hfail : s.next = (.error e, { s with head := h' }) := by
          rw [next, hs, hnext]; exact if_neg hend
        rw [drain_of_error hfail]

/-- From a place on, a scan delivers comments that come first among the segments, and by a
reader that is able to answer all of them. -/
theorem drain_of_segmentation (hserves : σ.Serves s.rules)
    (hseg : Segmentation s.rules σ.cut before text segments) (hgo : s.GoesOn σ before text) :
    s.drain.1 <+: commentsOf segments ∧
      (σ.able → ∃ last, s.drain = (commentsOf segments, .ok last) ∧ last.StoppedAt σ) := by
  -- By the number of comments to come; each call takes the first of them.
  induction hn : (commentsOf segments).length using Nat.strongRecOn
    generalizing s before text segments with
  | ind n ih =>
    subst hn
    rcases nextComment_spec hserves hseg hgo.at_head with
      ⟨c, more, before', text', h', hnext, hat, hmore, hsegs⟩ | ⟨⟨e, h', hnext, he⟩, hnil⟩
    · obtain ⟨hle, hall⟩ := ih (commentsOf more).length
        (by rw [hsegs]; exact Nat.lt_succ_self _) (s := { s with head := h' }) hserves hmore
        ⟨hgo.not_finished, hgo.no_error, hat⟩ rfl
      rw [drain_of_comment (next_of_comment hgo.not_finished hnext), hsegs]
      refine ⟨List.cons_prefix_cons.2 ⟨rfl, hle⟩, fun hable => ?_⟩
      obtain ⟨last, hdrain, hlast⟩ := hall hable
      exact ⟨last, by rw [hdrain], hlast⟩
    · refine ⟨?_, fun hable => ?_⟩
      · rw [drain_of_nextComment_error hnext]
        exact List.nil_prefix
      · obtain ⟨last, hstop, hlast⟩ := next_of_ends hgo.not_finished hgo.no_error hnext (he.ends hable)
        exact ⟨last, by rw [drain_of_none hstop, hnil hable], hlast⟩

/-- A scan just begun stands in front of all of the text; if its chunks are too large, it might
as well stand in front of an empty one. -/
theorem goesOn_ofReader (rules : Rules) (octets : Octets) {charsetName : Text} {k : Codec}
    {maxPeek : Int} (chunkSize : Int) (hname : Charset.ofName charsetName = .ok (.plain k))
    (hpeek : 1 ≤ maxPeek) :
    ∃ r, Reader.ofOctets octets charsetName maxPeek chunkSize = .ok r ∧
      (∀ able : Prop, (able → chunkSize ≤ Reader.maxChunk) →
        (ofReader rules r).GoesOn (.ofOctets k octets charsetName maxPeek chunkSize able) []
          (k.pass true octets).runes) ∧
      (Reader.maxChunk < chunkSize →
        (ofReader rules r).GoesOn (.ofOctets k octets charsetName maxPeek chunkSize False) []
          []) := by
  obtain ⟨r, hr, hcharset, hlimit, hpos, hout, hsettled, hblocked⟩ :=
    Reader.outlook_ofOctets octets chunkSize hname hpeek
  obtain ⟨-, -, hsize, -⟩ := Reader.fields_ofOctets hr
  refine ⟨r, hr, fun able hable => ⟨rfl, rfl, ⟨?_, hcharset, hlimit, hsize, hpos, rfl⟩⟩,
    fun hchunk => ⟨rfl, rfl, ⟨.inr ⟨id, hblocked hchunk⟩, hcharset, hlimit, hsize, hpos, rfl⟩⟩⟩
  by_cases hchunk : chunkSize ≤ Reader.maxChunk
  · exact .inl (.settled (hsettled hchunk) hout)
  · exact .inr ⟨fun h => hchunk (hable h), hblocked (Int.lt_of_not_ge hchunk)⟩

/-- A scan by a reader that is able to answer delivers the comments among the segments. -/
theorem drain_of_octets {rules : Rules} {octets : Octets} {charsetName : Text} {k : Codec}
    {maxPeek chunkSize : Int} {p : Pass} (hpass : k.pass true octets = p)
    (hname : Charset.ofName charsetName = .ok (.plain k)) (hfit : rules.Fits maxPeek.toNat)
    (hchunk : chunkSize ≤ Reader.maxChunk)
    (hseg : Segmentation rules p.fault.isSome [] p.runes segments) :
    ∃ r last, Reader.ofOctets octets charsetName maxPeek chunkSize = .ok r ∧
      (ofReader rules r).drain = (commentsOf segments, .ok last) ∧ last.finished = true := by
  obtain ⟨r, hr, hgo, -⟩ := goesOn_ofReader rules octets chunkSize hname hfit.one_le
  subst hpass
  obtain ⟨last, hdrain, hlast⟩ := (drain_of_segmentation (fun n hn _ => hfit n hn) hseg
    (hgo True fun _ => hchunk)).2 trivial
  exact ⟨r, last, hr, hdrain, hlast.1⟩

/-- The comments of a scan are exactly the comments among the segments of the text that the
octets stand for, in order. -/
theorem drain_eq_segmentation (rules : Rules) (octets : Octets) {charsetName : Text} {k : Codec}
    {maxPeek chunkSize : Int} (hname : Charset.ofName charsetName = .ok (.plain k))
    (hfit : rules.Fits maxPeek.toNat) (hchunk : chunkSize ≤ Reader.maxChunk) :
    ∃ r segments last, Reader.ofOctets octets charsetName maxPeek chunkSize = .ok r ∧
      Segmentation rules (k.pass true octets).fault.isSome [] (k.pass true octets).runes segments ∧
      (∀ segments', Segmentation rules (k.pass true octets).fault.isSome []
        (k.pass true octets).runes segments' → segments' = segments) ∧
      (ofReader rules r).drain = (commentsOf segments, .ok last) ∧ last.finished = true := by
  obtain ⟨segments, hseg, hunique⟩ := existsUnique_segmentation rules
    (k.pass true octets).fault.isSome (k.pass true octets).runes
  obtain ⟨r, last, hr, hdrain, hlast⟩ := drain_of_octets rfl hname hfit hchunk hseg
  exact ⟨r, segments, last, hr, hseg, hunique, hdrain, hlast⟩

/-- Whatever the limits of the reader are, a scan delivers comments that come first among those
in the text. -/
theorem drain_prefix_segmentation {rules : Rules} {octets : Octets} {charsetName : Text}
    {k : Codec} {maxPeek : Int} (chunkSize : Int)
    (hname : Charset.ofName charsetName = .ok (.plain k)) (hpeek : 1 ≤ maxPeek)
    (hseg : Segmentation rules (k.pass true octets).fault.isSome [] (k.pass true octets).runes
      segments) :
    ∃ r, Reader.ofOctets octets charsetName maxPeek chunkSize = .ok r ∧
      (ofReader rules r).drain.1 <+: commentsOf segments := by
  obtain ⟨r, hr, hgo, -⟩ := goesOn_ofReader rules octets chunkSize hname hpeek
  -- Nothing is known of what the reader is able to, so that no look need be allowed.
  have hserves : (Source.ofOctets k octets charsetName maxPeek chunkSize False).Serves rules :=
    fun _ _ => False.elim
  exact ⟨r, hr, (drain_of_segmentation hserves hseg (hgo False False.elim)).1⟩

/-- If chunks are too large, a scan delivers nothing. -/
theorem drain_of_hugeChunk (rules : Rules) (octets : Octets) {charsetName : Text} {k : Codec}
    {maxPeek chunkSize : Int} (hname : Charset.ofName charsetName = .ok (.plain k))
    (hpeek : 1 ≤ maxPeek) (hchunk : Reader.maxChunk < chunkSize) :
    ∃ r, Reader.ofOctets octets charsetName maxPeek chunkSize = .ok r ∧
      (ofReader rules r).drain.1 = [] := by
  obtain ⟨r, hr, -, hgo⟩ := goesOn_ofReader rules octets chunkSize hname hpeek
  have hserves : (Source.ofOctets k octets charsetName maxPeek chunkSize False).Serves rules :=
    fun _ _ => False.elim
  have hle := (drain_of_segmentation hserves .done (hgo hchunk)).1
  exact ⟨r, hr, List.prefix_nil.1 hle⟩

/-- A scan delivers the comments among the segments, or nothing if its chunks are too large. -/
theorem exists_drain {rules : Rules} {octets : Octets} {charsetName : Text} {k : Codec}
    {maxPeek : Int} (chunkSize : Int) (hname : Charset.ofName charsetName = .ok (.plain k))
    (hfit : rules.Fits maxPeek.toNat)
    (hseg : Segmentation rules (k.pass true octets).fault.isSome [] (k.pass true octets).runes
      segments) :
    ∃ r, Reader.ofOctets octets charsetName maxPeek chunkSize = .ok r ∧
      (ofReader rules r).drain.1 =
        if chunkSize ≤ Reader.maxChunk then commentsOf segments else [] := by
  by_cases hchunk : chunkSize ≤ Reader.maxChunk
  · obtain ⟨r, last, hr, hdrain, -⟩ := drain_of_octets rfl hname hfit hchunk hseg
    exact ⟨r, hr, by rw [hdrain, if_pos hchunk]⟩
  · obtain ⟨r, hr, hdrain⟩ :=
      drain_of_hugeChunk rules octets hname hfit.one_le (Int.lt_of_not_ge hchunk)
    exact ⟨r, hr, by rw [hdrain, if_neg hchunk]⟩

/-- So does a scan of octets that stand for a text. -/
theorem exists_drain_of_decodes {rules : Rules} {octets : Octets} {text charsetName : Text}
    {k : Codec} {maxPeek : Int} (chunkSize : Int) (htext : k.Decodes octets text)
    (hname : Charset.ofName charsetName = .ok (.plain k)) (hfit : rules.Fits maxPeek.toNat)
    (hseg : Segmentation rules false [] text segments) :
    ∃ r, Reader.ofOctets octets charsetName maxPeek chunkSize = .ok r ∧
      (ofReader rules r).drain.1 =
        if chunkSize ≤ Reader.maxChunk then commentsOf segments else [] := by
  obtain ⟨rfl, hfault⟩ := htext
  refine exists_drain chunkSize hname hfit ?_
  rwa [hfault]

/-- A string and a comment behind it; what looks like a comment in the string is none. -/
theorem segmentation_string_comment :
    Segmentation Language.slashStyle false [] "'//'//a".toList
      [.literal "'//'".toList, .comment ⟨"//a".toList, 1, .line (some Language.slashLine)⟩] := by
  have hstring : Reads (decideString Language.singleQuote ()) false () ['\''] ['/', '/', '\'']
      ['/', '/', 'a'] () :=
    .more (u := ['/']) rfl (by decide) (.more (u := ['/']) rfl (by decide) (.last rfl (by decide)))
  have hline : Reads decideLine false () "'//'//".toList ['a'] [] () :=
    .more (u := ['a']) rfl (by decide) (.stop rfl (by decide))
  have hcomment : Segmentation Language.slashStyle false "'//'".toList
      ("//".toList ++ (['a'] ++ []))
      [.comment ⟨"//a".toList, 1, .line (some Language.slashLine)⟩] :=
    .closed (o := .line Language.slashLine) rfl (.line hline) .done
  exact @Segmentation.closed _ _ [] "//'".toList "//a".toList (.string Language.singleQuote) none _
    rfl (.string hstring) hcomment

/-- The start of a comment in a string is no comment, one behind it is. -/
theorem drain_eq_segmentation_string_comment :
    Charset.ofName "utf-8".toList = .ok (.plain .utf8) ∧
      Language.slashStyle.Fits (1024 : Int).toNat ∧ (1 : Int) ≤ Reader.maxChunk ∧
      ∃ r last, Reader.ofOctets [0x27, 0x2F, 0x2F, 0x27, 0x2F, 0x2F, 0x61] "utf-8".toList 1024 1 =
          .ok r ∧
        (ofReader Language.slashStyle r).drain =
          ([⟨"//a".toList, 1, .line (some Language.slashLine)⟩], .ok last) := by
  refine ⟨rfl, by decide, by decide, ?_⟩
  obtain ⟨r, segments, last, hr, -, hunique, hdrain, -⟩ :=
    drain_eq_segmentation Language.slashStyle [0x27, 0x2F, 0x2F, 0x27, 0x2F, 0x2F, 0x61]
      (show Charset.ofName "utf-8".toList = .ok (.plain .utf8) from rfl)
      (show Language.slashStyle.Fits (1024 : Int).toNat by decide)
      (show (1 : Int) ≤ Reader.maxChunk by decide)
  have hpass : Codec.utf8.pass true [0x27, 0x2F, 0x2F, 0x27, 0x2F, 0x2F, 0x61] =
      ⟨"'//'//a".toList, [], none⟩ := Codec.pass_utf8_of_ascii true (by simp)
  rw [hpass] at hunique
  refine ⟨r, last, hr, ?_⟩
  rw [hdrain, ← hunique _ segmentation_string_comment]
  rfl

/-- With chunks that are too large no comment is found. -/
theorem drain_ne_segmentation_of_hugeChunk :
    ∃ r segments, Reader.ofOctets [0x27, 0x2F, 0x2F, 0x27, 0x2F, 0x2F, 0x61] "utf-8".toList 1024
        9223372036854775808 = .ok r ∧
      Segmentation Language.slashStyle false [] "'//'//a".toList segments ∧
      (ofReader Language.slashStyle r).drain.1 ≠ commentsOf segments := by
  obtain ⟨r, hr, hdrain⟩ := drain_of_hugeChunk Language.slashStyle
    [0x27, 0x2F, 0x2F, 0x27, 0x2F, 0x2F, 0x61]
    (show Charset.ofName "utf-8".toList = .ok (.plain .utf8) from rfl)
    (show (1 : Int) ≤ 1024 by decide)
    (show Reader.maxChunk < (9223372036854775808 : Int) by decide)
  refine ⟨r, _, hr, segmentation_string_comment, ?_⟩
  rw [hdrain]
  exact (List.cons_ne_nil _ _).symm

end Scanner

end SourceNotes
