/-
The steps of a scan.

In code a scan takes one step after another: over a rune where nothing begins, else over all
of what begins at its place, which may be a comment (`Head.step`). `GetsTo` says which heads
such steps lead to, and which comments they deliver on the way.

* **`nextComment_eq_step`**, **`Scanner.drain_of_getsTo`** — going on to the next comment is
  taking steps, and a scan delivers what its steps do;
* **`Head.At.of_step`**, **`Head.At.of_getsTo`** — steps go forward through the text;
* **`Scanner.exists_opening`** — where in a decodable text something begins at a head that a
  scan gets to;
* **`Head.At.step_closed`**, **`Head.At.next_open`** — the step over what begins there, and what
  comes of it if it has no end.
-/
import SourceNotes.Proofs.Comment.Append
import SourceNotes.Proofs.Comment.Calls
import SourceNotes.Proofs.Reader.Mute

namespace SourceNotes

open Head Text Charset

/-! ### Steps -/

namespace Head

/-- One step in code. The answer is the comment that it moves over, if it is one. -/
def step (rules : Rules) : Scan (Option Comment) := do
  match ← opening rules with
  | none =>
    let _ ← take 1
    return none
  | some o =>
    let line := (← get).reader.position.line
    let _ ← take o.start.length
    o.body line

end Head

/-- Steps lead from one head to the other and deliver these comments on the way. -/
inductive GetsTo (rules : Rules) : Head → List Comment → Head → Prop
  | here {h : Head} : GetsTo rules h [] h
  | step {h h₁ h' : Head} {c : Option Comment} {comments : List Comment}
      (hstep : step rules h = .ok c h₁) (hnext : GetsTo rules h₁ comments h') :
      GetsTo rules h (c.toList ++ comments) h'

variable {rules : Rules} {h h₁ h' : Head} {o : Opening} {c : Comment} {comments : List Comment}

theorem step_of_none (hopening : opening rules h = .ok none h₁) :
    step rules h = (take 1 >>= fun _ => pure none) h₁ := by
  rw [step, bind_of_ok hopening]

theorem step_of_some (hopening : opening rules h = .ok (some o) h₁) :
    step rules h = (take o.start.length >>= fun _ => o.body h₁.reader.position.line) h₁ := by
  have hget : (get : Scan Head) h₁ = .ok h₁ h₁ := rfl
  rw [step, bind_of_ok hopening]
  exact bind_of_ok hget

/-- Going on to the next comment is taking a step, and going on from there unless it was over a
comment. -/
theorem nextComment_eq_step (rules : Rules) (h : Head) :
    nextComment rules h =
      match step rules h with
      | .error e h => .error e h
      | .ok (some comment) h => .ok comment h
      | .ok none h => nextComment rules h := by
  cases hopening : opening rules h with
  | error e h₁ =>
    have hcode : codeStep rules () h = .error e h₁ := bind_of_error hopening
    have hstep : step rules h = .error e h₁ := bind_of_error hopening
    rw [nextComment_of_error (run_of_error hcode), hstep]
  | ok found h₁ =>
    cases found with
    | none =>
      have hcode : codeStep rules () h = .ok (.more 1 ()) h₁ := bind_of_ok hopening
      have hrun : run (codeStep rules) (peeks_codeStep rules) () [] h = _ := run_of_more hcode
      rw [step_of_none hopening]
      cases htake : take 1 h₁ with
      | error e h₂ =>
        rw [htake] at hrun
        rw [bind_of_error htake]
        exact nextComment_of_error hrun
      | ok s h₂ =>
        rw [htake] at hrun
        rw [bind_of_ok htake]
        exact nextComment_of_prepend (hrun.trans (run_taken _))
    | some o =>
      have hcode : codeStep rules () h =
          .ok (.last o.start.length (o, h₁.reader.position.line)) h₁ := bind_of_ok hopening
      have hrun : run (codeStep rules) (peeks_codeStep rules) () [] h = _ := run_of_last hcode
      rw [step_of_some hopening]
      cases htake : take o.start.length h₁ with
      | error e h₂ =>
        rw [htake] at hrun
        rw [bind_of_error htake]
        exact nextComment_of_error hrun
      | ok s h₂ =>
        rw [htake] at hrun
        rw [bind_of_ok htake]
        exact nextComment_of_opening hrun

namespace Scanner

/-- A scanner in code at a head. -/
def ofHead (rules : Rules) (head : Head) : Scanner := { rules, head }

theorem next_of_step_none (hstep : step rules h = .ok none h') :
    (ofHead rules h).next = (ofHead rules h').next := by
  have hnext : nextComment rules h = nextComment rules h' := by
    rw [nextComment_eq_step, hstep]
  rw [next, next]
  simp only [ofHead, hnext, Bool.false_eq_true, if_false]

theorem next_of_step_some (hstep : step rules h = .ok (some c) h') :
    (ofHead rules h).next = (.ok (some c), ofHead rules h') := by
  have hnext : nextComment rules h = .ok c h' := by
    rw [nextComment_eq_step, hstep]
  exact next_of_comment rfl hnext

/-- What a scan delivers is decided by the call for the next comment. -/
theorem drain_congr {s s' : Scanner} (h : s.next = s'.next) : s.drain = s'.drain := by
  rcases hnext : s'.next with ⟨_ | _ | c, s''⟩
  · rw [drain_of_error hnext, drain_of_error (h.trans hnext)]
  · rw [drain_of_none hnext, drain_of_none (h.trans hnext)]
  · rw [drain_of_comment hnext, drain_of_comment (h.trans hnext)]

/-- A scan delivers the comments on the way to a head, and those that a scan from there does. -/
theorem drain_of_getsTo (hgets : GetsTo rules h comments h') :
    (ofHead rules h).drain =
      (comments ++ (ofHead rules h').drain.1, (ofHead rules h').drain.2) := by
  induction hgets with
  | here => rfl
  | @step h h₁ h' found comments hstep _ ih =>
    cases found with
    | none => rw [drain_congr (next_of_step_none hstep), ih]; rfl
    | some c => rw [drain_of_comment (next_of_step_some hstep), ih]; rfl

end Scanner

/-! ### Where steps lead -/

variable {σ : Source} {before after s rest : Text} {form : Option Comment.Form}

theorem Head.Reaches.exists_ok {α : Type} {m : Scan α} {a : α} (hable : σ.able)
    (hm : Reaches σ m h a before after) : ∃ h', m h = .ok a h' ∧ h'.At σ before after := by
  rcases hm with hok | ⟨-, hunable⟩
  · exact hok
  · exact absurd hable hunable

theorem Head.Reaches.of_eq {α : Type} {m m' : Scan α} {a : α} (heq : m h = m' h')
    (hm : Reaches σ m' h' a before after) : Reaches σ m h a before after := by
  unfold Reaches Fails
  rw [heq]
  exact hm

/-- Each of the comments is a stretch of `after`, on the line that the newlines in front of it say,
those in `before` among them. -/
def StandIn (before after : Text) (comments : List Comment) : Prop :=
  ∀ c ∈ comments, ∃ s rest, after = s ++ (c.text ++ rest) ∧
    c.line = (1 + (before ++ s).count '\n' : Nat)

namespace Head.At

/-- What is found to begin at a head is what wins there. -/
theorem of_opening (hserves : σ.Serves rules) (hat : h.At σ before after)
    {found : Option Opening} (hopening : opening rules h = .ok found h₁) :
    found = rules.winnerAt before after ∧ h₁.At σ before after := by
  rcases shows_opening hserves hat with ⟨h₂, hok, hat₂⟩ | ⟨⟨e, h₂, herr, -⟩, -⟩
  · rw [hopening] at hok
    cases hok
    exact ⟨rfl, hat₂⟩
  · rw [hopening] at herr
    cases herr

/-- The step over a rune where nothing begins. -/
theorem step_code (hserves : σ.Serves rules) {c : Char}
    (hwin : rules.winnerAt before (c :: rest) = none) (hat : h.At σ before (c :: rest)) :
    Reaches σ (step rules) h none (before ++ [c]) rest := by
  have hne : σ.cut = true → c :: rest ≠ [] := fun _ => List.cons_ne_nil _ _
  refine ((shows_opening hserves).reaches hat hne).andThen (fun hopening hat₁ => ?_)
    bind_of_error
  rw [hwin] at hopening
  refine Reaches.of_eq (step_of_none hopening) ?_
  exact (reaches_take (u := [c]) hat₁ (List.cons_ne_nil _ _) hserves.two.one).andThen
    (fun htake hat₂ => .inl ⟨_, bind_of_ok htake, hat₂⟩) bind_of_error

/-- The step over what begins and comes to its end. -/
theorem step_closed (hserves : σ.Serves rules)
    (hwin : rules.winnerAt before (o.start ++ (s ++ rest)) = some o)
    (hclose : o.Closes σ.cut (before ++ o.start) s rest form)
    (hat : h.At σ before (o.start ++ (s ++ rest))) :
    Reaches σ (step rules) h
      (form.map fun form => ⟨o.start ++ s, (1 + before.count '\n' : Nat), form⟩)
      (before ++ (o.start ++ s)) rest := by
  have hstart := Opening.start_ne_nil o
  have hrules := Opening.isOf_of_winnerAt hwin
  have hne : σ.cut = true → o.start ++ (s ++ rest) ≠ [] :=
    fun _ => List.append_ne_nil_of_left_ne_nil hstart _
  refine ((shows_opening hserves).reaches hat hne).andThen (fun {h₁} hopening hat₁ => ?_)
    bind_of_error
  rw [hwin] at hopening
  have hline : h₁.reader.position.line = 1 + before.count '\n' := by
    rw [hat₁.position_eq, Position.line_after]
  refine Reaches.of_eq (step_of_some hopening) ?_
  rw [hline, ← List.append_assoc]
  refine (reaches_take hat₁ hstart (hserves.start hrules)).andThen (fun htake hat₂ => ?_)
    bind_of_error
  exact (Opening.reaches_body hserves hrules hclose _ hat₂).of_eq (bind_of_ok htake)

/-- The step over what begins and has no end. -/
theorem fails_step_open (hserves : σ.Serves rules)
    (hwin : rules.winnerAt before (o.start ++ s) = some o)
    (hopen : ∀ s' rest form, s = s' ++ rest → ¬ o.Closes σ.cut (before ++ o.start) s' rest form)
    (hat : h.At σ before (o.start ++ s)) : Fails σ (step rules) h := by
  have hrules := Opening.isOf_of_winnerAt hwin
  rcases shows_opening hserves hat with ⟨h₁, hopening, hat₁⟩ | ⟨hfail, -⟩
  · rw [hwin] at hopening
    have hstep := step_of_some hopening
    rcases reaches_take hat₁ (Opening.start_ne_nil _) (hserves.start hrules) with
      ⟨h₂, htake, hat₂⟩ | ⟨hfail, -⟩
    · exact (Opening.fails_body hserves hrules hopen _ hat₂).imp
        fun herr => hstep.trans ((bind_of_ok htake).trans herr)
    · exact hfail.imp fun herr => hstep.trans (bind_of_error herr)
  · exact hfail.imp bind_of_error

/-- Behind all of the text no step is left. -/
theorem fails_step_nil (hserves : σ.Serves rules) (hat : h.At σ before []) :
    Fails σ (step rules) h := by
  rcases shows_opening hserves hat with ⟨h₁, hopening, hat₁⟩ | ⟨hfail, -⟩
  · rw [Rules.winnerAt_nil] at hopening
    exact (fails_take hat₁ Nat.one_pos hserves.two.one).imp
      fun herr => (step_of_none hopening).trans (bind_of_error herr)
  · exact hfail.imp bind_of_error

/-- A step goes forward through the text. -/
theorem of_step (hserves : σ.Serves rules) (hat : h.At σ before after) {found : Option Comment}
    (hstep : step rules h = .ok found h') :
    ∃ s rest, after = s ++ rest ∧ h'.At σ (before ++ s) rest := by
  have hno (hfail : Fails σ (step rules) h) : False := by
    obtain ⟨e, h₁, herr, -⟩ := hfail
    rw [hstep] at herr
    cases herr
  have hreached {a : Option Comment} {u v : Text} (hreach : Reaches σ (step rules) h a u v) :
      h'.At σ u v := by
    rcases hreach with ⟨h₁, hok, hat₁⟩ | ⟨hfail, -⟩
    · rw [hstep] at hok
      cases hok
      exact hat₁
    · exact (hno hfail).elim
  cases hwin : rules.winnerAt before after with
  | none =>
    cases after with
    | nil => exact (hno (hat.fails_step_nil hserves)).elim
    | cons c rest => exact ⟨[c], rest, rfl, hreached (hat.step_code hserves hwin)⟩
  | some o =>
    obtain ⟨s, rfl⟩ := List.isPrefixOf_iff_prefix.1 (Rules.startsWith_of_winnerAt hwin)
    by_cases hclose :
        ∃ s' rest form, s = s' ++ rest ∧ o.Closes σ.cut (before ++ o.start) s' rest form
    · obtain ⟨s', rest, form, rfl, hclose⟩ := hclose
      exact ⟨o.start ++ s', rest, (List.append_assoc ..).symm,
        hreached (hat.step_closed hserves hwin hclose)⟩
    · refine (hno (hat.fails_step_open hserves hwin fun s' rest form hs h => ?_)).elim
      exact hclose ⟨s', rest, form, hs, h⟩

/-- So do all the steps to a head. -/
theorem of_getsTo (hserves : σ.Serves rules) (hat : h.At σ before after)
    (hgets : GetsTo rules h comments h') :
    ∃ s rest, after = s ++ rest ∧ h'.At σ (before ++ s) rest := by
  induction hgets generalizing before after with
  | here => exact ⟨[], after, rfl, by rwa [List.append_nil]⟩
  | step hstep _ ih =>
    obtain ⟨s, rest, rfl, hat₁⟩ := hat.of_step hserves hstep
    obtain ⟨s', rest', rfl, hat'⟩ := ih hat₁
    exact ⟨s ++ s', rest', (List.append_assoc ..).symm, by rwa [← List.append_assoc]⟩

/-- If what begins at a head of a decodable text has no end, there is no comment any more, and no
error. -/
theorem next_open (hserves : σ.Serves rules) (hable : σ.able) (hfault : σ.fault = none)
    (hwin : rules.winnerAt before (o.start ++ s) = some o)
    (hopen : ∀ s' rest form, s = s' ++ rest → ¬ o.Closes σ.cut (before ++ o.start) s' rest form)
    (hat : h.At σ before (o.start ++ s)) :
    ∃ last, (Scanner.ofHead rules h).next = (.ok none, last) ∧ last.finished = true ∧
      last.error = none := by
  have hfail : Fails σ (nextComment rules) h :=
    (hat.fails_step_open hserves hwin hopen).imp fun herr => by rw [nextComment_eq_step, herr]
  obtain ⟨e, h', hnext, hstops⟩ := hfail
  obtain ⟨last, hlast, hfinished, herror⟩ :=
    Scanner.next_of_ends (s := Scanner.ofHead rules h) rfl rfl hnext (hstops.ends hable)
  rw [hfault] at herror
  exact ⟨last, hlast, hfinished, herror⟩

/-- What a scan from a head delivers stands behind it in the text. -/
theorem drain_standIn (hserves : σ.Serves rules) (hat : h.At σ before after) :
    StandIn before after (Scanner.ofHead rules h).drain.1 := by
  intro c hc
  obtain ⟨segments, hseg⟩ := exists_segmentation rules σ.cut before after
  obtain ⟨hfront, -⟩ :=
    Scanner.drain_of_segmentation (s := Scanner.ofHead rules h) hserves hseg ⟨rfl, rfl, hat⟩
  obtain ⟨l, m, rfl⟩ := exists_append_of_mem_commentsOf (hfront.subset hc)
  obtain ⟨hline, -⟩ := hseg.comment_spec rfl
  refine ⟨l.flatMap Segment.text, m.flatMap Segment.text, ?_, hline⟩
  rw [← hseg.flatMap_text, List.flatMap_append, List.flatMap_cons]
  rfl

end Head.At

/-! ### Scans of decodable texts -/

/-- The octets stand for the text, and for nothing else. -/
structure Charset.Decodes (charset : Charset) (octets : Octets) (text : Text) : Prop where
  decode_eq : charset.decode octets = ⟨text, none⟩
  marked : ¬ charset.Unmarked octets

variable {charset : Charset} {octets : Octets} {text charsetName : Text} {maxPeek : Int}

theorem Charset.decodes_plain {k : Codec} (h : k.Decodes octets text) :
    (Charset.plain k).Decodes octets text where
  decode_eq := by rw [decode, Codec.read, h.1, h.2]
  marked := id

theorem Source.serves_ofReader {r : Reader} (hfit : rules.Fits maxPeek.toNat)
    (hlimit : r.maxPeek = maxPeek.toNat) (fault : Option Fault) (able : Prop) :
    (Source.ofReader r fault able).Serves rules := by
  intro n hn _
  show n ≤ r.maxPeek
  rw [hlimit]
  exact hfit n hn

namespace Scanner

/-- A scan of a decodable text begins in front of all of it; if its chunks are too large, it might
as well begin in front of an empty one. -/
theorem exists_start (htext : charset.Decodes octets text) (chunkSize : Int)
    (hname : Charset.ofName charsetName = .ok charset) (hpeek : 1 ≤ maxPeek) :
    ∃ r, Reader.ofOctets octets charsetName maxPeek chunkSize = .ok r ∧
      r.maxPeek = maxPeek.toNat ∧
      (∀ able : Prop, (able → chunkSize ≤ Reader.maxChunk) →
        ({ reader := r } : Head).At (.ofReader r none able) [] text) ∧
      (Reader.maxChunk < chunkSize →
        ({ reader := r } : Head).At (.ofReader r none False) [] []) := by
  by_cases hchunk : chunkSize ≤ Reader.maxChunk
  · obtain ⟨r, o, hr, hyields, hdel⟩ := Reader.exists_delivers hname hpeek hchunk htext.marked
    obtain ⟨-, hlimit, -, hpos⟩ := Reader.fields_ofOctets hr
    obtain rfl : o = ⟨text, none⟩ := by
      rcases hyields with h | ⟨-, hfault, h⟩
      · exact h.symm.trans htext.decode_eq
      · rw [htext.decode_eq] at h
        exact absurd (Outlook.mk.inj h).2.symm hfault
    exact ⟨r, hr, hlimit, fun able _ => ⟨.inl hdel, rfl, rfl, rfl, hpos, rfl⟩,
      fun hlt => absurd hlt (Int.not_lt.2 hchunk)⟩
  · obtain ⟨r, hr, hblocked⟩ :=
      Reader.exists_blocked octets hname hpeek (Int.lt_of_not_ge hchunk)
    obtain ⟨-, hlimit, -, hpos⟩ := Reader.fields_ofOctets hr
    exact ⟨r, hr, hlimit,
      fun able hable => ⟨.inr ⟨fun h => hchunk (hable h), hblocked⟩, rfl, rfl, rfl, hpos, rfl⟩,
      fun _ => ⟨.inr ⟨id, hblocked⟩, rfl, rfl, rfl, hpos, rfl⟩⟩

/-- Something begins at a head that a scan of a decodable text gets to: the head stands in front of
its start, and it is what wins there. -/
theorem exists_opening (htext : charset.Decodes octets text) (chunkSize : Int)
    (hname : Charset.ofName charsetName = .ok charset) (hfit : rules.Fits maxPeek.toNat) :
    ∃ r, Reader.ofOctets octets charsetName maxPeek chunkSize = .ok r ∧
      (Source.ofReader r none True).Serves rules ∧
      ∀ {comments h h₁ o}, GetsTo rules { reader := r } comments h →
        opening rules h = .ok (some o) h₁ →
        ∃ before after, text = before ++ (o.start ++ after) ∧
          h.At (.ofReader r none True) before (o.start ++ after) ∧
          rules.winnerAt before (o.start ++ after) = some o := by
  obtain ⟨r, hr, hlimit, hat, hblind⟩ := exists_start htext chunkSize hname hfit.one_le
  have hserves := Source.serves_ofReader hfit hlimit none
  refine ⟨r, hr, hserves True, fun {comments h h₁ o} hgets hopening => ?_⟩
  by_cases hchunk : chunkSize ≤ Reader.maxChunk
  · obtain ⟨before, after, rfl, hat'⟩ :=
      (hat True fun _ => hchunk).of_getsTo (hserves True) hgets
    obtain ⟨hwin, -⟩ := hat'.of_opening (hserves True) hopening
    obtain ⟨s, rfl⟩ :=
      List.isPrefixOf_iff_prefix.1 (Rules.startsWith_of_winnerAt hwin.symm)
    exact ⟨before, s, rfl, hat', hwin.symm⟩
  · -- Nothing begins at the end of a text.
    obtain ⟨before, after, hnil, hat'⟩ :=
      (hblind (Int.lt_of_not_ge hchunk)).of_getsTo (hserves False) hgets
    obtain ⟨-, rfl⟩ := List.append_eq_nil_iff.1 hnil.symm
    obtain ⟨hwin, -⟩ := hat'.of_opening (hserves False) hopening
    rw [Rules.winnerAt_nil] at hwin
    cases hwin

/-- What wins in front of a text begins at the head of a scan that has not moved. -/
theorem exists_opening_start (htext : charset.Decodes octets text) {chunkSize : Int}
    (hchunk : chunkSize ≤ Reader.maxChunk) (hname : Charset.ofName charsetName = .ok charset)
    (hfit : rules.Fits maxPeek.toNat) (hwin : rules.winnerAt [] text = some o) {r : Reader}
    (hr : Reader.ofOctets octets charsetName maxPeek chunkSize = .ok r) :
    ∃ h₁, opening rules { reader := r } = .ok (some o) h₁ := by
  obtain ⟨r', hr', hlimit, hat, -⟩ := exists_start htext chunkSize hname hfit.one_le
  rw [hr] at hr'
  cases hr'
  have hserves := Source.serves_ofReader hfit hlimit none True
  rcases shows_opening hserves (hat True fun _ => hchunk) with ⟨h₁, hopening, -⟩ | ⟨-, hend⟩
  · exact ⟨h₁, by rw [hopening, hwin]⟩
  · cases (hend trivial).2

end Scanner

/-- Only in front of a text is the place where a position begins. -/
theorem Position.eq_nil_of_after (h : Position.after {} s = {}) : s = [] := by
  have hline := line_after {} s
  have hcolumn := column_after s
  rw [h] at hline hcolumn
  refine Decidable.byContradiction fun hs => ?_
  have hmem := newline_mem_of_lastLine (List.length_eq_zero_iff.1 hcolumn.symm) hs
  have := List.count_pos_iff.2 hmem
  have : (1 : Nat) = 1 + s.count '\n' := hline
  omega

theorem Head.At.before_eq_nil (hat : h.At σ before after) (hpos : h.reader.position = {}) :
    before = [] :=
  Position.eq_nil_of_after (hat.position_eq.symm.trans hpos)

end SourceNotes
