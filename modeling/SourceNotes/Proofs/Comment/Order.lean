/-
The choice among the rules, and their order.

At each place in code a scan goes by the rules that stand there: over one rune if none does, else
over the start of what wins among the longest. The order of the rules matters to that only between
rules that begin alike, so that rules with distinct starts may be declared in any order.

* **`Rules.Permuted`**, **`Rules.DistinctStarts`** — the same rules in another order, and rules of
  which no two of a kind begin alike;
* **`Rules.Permuted.winnerAt_eq`** — the order does not matter to what wins;
* **`Scanner.drain_of_mute`**, **`Scanner.drain_congr_winnerAt`** — scans of any octets by rules
  among which the same wins deliver the same comments;
* **`Scanner.choice_and_order`** — the choice at each place that a scan gets to, and the scans by
  the same rules in another order.
-/
import SourceNotes.Proofs.Comment.Lines
import SourceNotes.Proofs.Comment.Steps
import Mathlib.Data.List.Find
import Mathlib.Data.List.Nodup
import Mathlib.Data.List.Perm.Basic

namespace SourceNotes

open Head Text Charset

namespace Rules

/-- The same rules in another order. -/
structure Permuted (rules rules' : Rules) : Prop where
  lines : rules.lines.Perm rules'.lines
  blocks : rules.blocks.Perm rules'.blocks
  strings : rules.strings.Perm rules'.strings

/-- No two rules of a kind have the same start. -/
structure DistinctStarts (rules : Rules) : Prop where
  lines : (rules.lines.map (·.start)).Nodup
  blocks : (rules.blocks.map (·.start)).Nodup
  strings : (rules.strings.map (·.start)).Nodup

variable {rules rules' : Rules} {before after : Text}

/-! ### What wins -/

section

variable {α : Type} {l l' : List α} {p : α → Bool}

theorem greatest_perm (size : α → Nat) (h : l.Perm l') : greatest size l = greatest size l' :=
  (h.map size).foldr_eq 0

/-- Of the rules that stand at a place, with distinct starts, one at most has a given length. -/
theorem find?_length_perm (start : α → Text) (h : l.Perm l') (hdistinct : (l.map start).Nodup)
    (hp : ∀ a, p a = true → startsWith (start a) after = true) (n : Nat) :
    (l.filter p).find? (fun a => (start a).length = n) =
      (l'.filter p).find? (fun a => (start a).length = n) := by
  refine List.find?_eq_find?_of_perm (h.filter p) ?_
  rintro a ⟨ha, hlen⟩ b ⟨hb, hlen'⟩
  obtain ⟨ha, hpa⟩ := List.mem_filter.1 ha
  obtain ⟨hb, hpb⟩ := List.mem_filter.1 hb
  -- Two starts of one length that stand at one place are the same.
  have hlengths : (start a).length = (start b).length := by
    rw [of_decide_eq_true hlen, of_decide_eq_true hlen']
  obtain ⟨t, rfl⟩ := List.isPrefixOf_iff_prefix.1 (hp b hpb)
  exact List.inj_on_of_nodup_map hdistinct ha hb (eq_of_startsWith (hp a hpa) hlengths)

end

theorem Permuted.standing (h : rules.Permuted rules') (before after : Text) :
    (rules.standing before after).Permuted (rules'.standing before after) :=
  ⟨h.lines.filter _, h.blocks.filter _, h.strings.filter _⟩

/-- The order of the rules does not matter to what wins, if no two of a kind begin alike. -/
theorem Permuted.winnerAt_eq (h : rules.Permuted rules') (hdistinct : rules.DistinctStarts)
    (before after : Text) : rules.winnerAt before after = rules'.winnerAt before after := by
  have hlongest : (rules.standing before after).longest =
      (rules'.standing before after).longest := by
    have hstanding := h.standing before after
    unfold longest
    rw [greatest_perm _ hstanding.lines, greatest_perm _ hstanding.strings,
      greatest_perm _ hstanding.blocks]
  have hline (n : Nat) : (rules.standing before after).lines.find? (·.start.length = n) =
      (rules'.standing before after).lines.find? (·.start.length = n) :=
    find?_length_perm LineRule.start h.lines hdistinct.lines (fun _ hr => hr) n
  have hstring (n : Nat) : (rules.standing before after).strings.find? (·.start.length = n) =
      (rules'.standing before after).strings.find? (·.start.length = n) :=
    find?_length_perm StringRule.start h.strings hdistinct.strings (fun _ hr => hr) n
  have hblock (n : Nat) : (rules.standing before after).blocks.find? (·.start.length = n) =
      (rules'.standing before after).blocks.find? (·.start.length = n) :=
    find?_length_perm BlockRule.start h.blocks hdistinct.blocks
      (fun _ hr => (Bool.and_eq_true_iff.1 hr).2) n
  simp only [winnerAt, winner, hlongest, hline, hstring, hblock]

/-- Rules in another order look as far ahead. -/
theorem Permuted.fits (h : rules.Permuted rules') {maxPeek : Nat} (hfit : rules.Fits maxPeek) :
    rules'.Fits maxPeek := by
  have hperm : rules.lookaheads.Perm rules'.lookaheads :=
    (((h.lines.map _).append (h.blocks.flatMap_right _)).append
      (h.strings.flatMap_right _)).cons 2
  exact fun n hn => hfit n (hperm.mem_iff.2 hn)

end Rules

variable {rules rules' : Rules} {cut : Bool} {before after text : Text} {segments : List Segment}

/-! ### Scans by which the same wins -/

/-- Where the same wins, a text falls into the same segments. -/
theorem Segmentation.congr_winnerAt (h : Segmentation rules cut before text segments)
    (hsame : ∀ before after, rules.winnerAt before after = rules'.winnerAt before after) :
    Segmentation rules' cut before text segments := by
  induction h with
  | done => exact .done
  | code hwin _ ih => exact .code (by rw [← hsame, hwin]) ih
  | closed hwin hclose _ ih => exact .closed (by rw [← hsame, hwin]) hclose ih
  | lost hwin hopen => exact .lost (by rw [← hsame, hwin]) hopen

section Mute

variable {h : Head}

theorem sees_of_mute (hmute : h.reader.Mute) {s : Text} (hs : s ≠ []) :
    ∃ e h', sees s h = .error e h' := by
  obtain ⟨e, r', hlook⟩ := hmute s.length (List.length_pos_iff.2 hs)
  have hhead : look s.length h = .error (.failed e) { h with reader := r' } := by
    rw [look, ask, hlook]
  exact ⟨_, _, bind_of_error hhead⟩

/-- Going through rules that each find nothing or fail finds nothing or fails. -/
theorem foldlM_none_or_error {α : Type} {f : Option Opening → α → Scan (Option Opening)}
    (hf : ∀ a, f none a h = .ok none h ∨ ∃ e h', f none a h = .error e h') (l : List α) :
    l.foldlM f none h = .ok none h ∨ ∃ e h', l.foldlM f none h = .error e h' := by
  induction l with
  | nil => exact .inl rfl
  | cons a l ih =>
    rw [List.foldlM_cons]
    rcases hf a with hok | ⟨e, h', herr⟩
    · rwa [bind_of_ok hok]
    · exact .inr ⟨e, h', bind_of_error herr⟩

/-- By a reader that shows nothing, nothing is found to begin, unless looking for it fails. -/
theorem opening_of_mute (hmute : h.reader.Mute) (rules : Rules) :
    opening rules h = .ok none h ∨ ∃ e h', opening rules h = .error e h' := by
  have hline (rule : LineRule) : ∃ e h', tryLine none rule h = .error e h' := by
    obtain ⟨e, h', herr⟩ := sees_of_mute hmute rule.start_ne_nil
    have hlong : ¬ rule.start.length ≤ Opening.size none :=
      Nat.not_le.2 (List.length_pos_iff.2 rule.start_ne_nil)
    exact ⟨e, h', by rw [tryLine, if_neg hlong]; exact bind_of_error herr⟩
  have hstring (rule : StringRule) : ∃ e h', tryString none rule h = .error e h' := by
    obtain ⟨e, h', herr⟩ := sees_of_mute hmute rule.start_ne_nil
    have hlong : ¬ rule.start.length < Opening.size none := Nat.not_lt_zero _
    exact ⟨e, h', by unfold tryString; rw [if_neg hlong]; exact bind_of_error herr⟩
  have hblock (rule : BlockRule) :
      tryBlock none rule h = .ok none h ∨ ∃ e h', tryBlock none rule h = .error e h' := by
    have hget : (get : Scan Head) h = .ok h h := rfl
    have hbeaten : ¬ rule.beatenBy none = true := by
      show ¬ decide (rule.start.length < 0) = true
      simp
    rw [tryBlock, if_neg hbeaten, bind_of_ok hget]
    by_cases hopen : rule.gateOpen h = true
    · rw [if_pos hopen]
      obtain ⟨e, h', herr⟩ := sees_of_mute hmute rule.start_ne_nil
      exact .inr ⟨e, h', bind_of_error herr⟩
    · rw [if_neg hopen]
      exact .inl rfl
  unfold opening
  rcases foldlM_none_or_error (fun rule => .inr (hline rule)) rules.lines with hok | ⟨e, h', herr⟩
  · rw [bind_of_ok hok]
    rcases foldlM_none_or_error (fun rule => .inr (hstring rule)) rules.strings with
      hok | ⟨e, h', herr⟩
    · rw [bind_of_ok hok]
      exact foldlM_none_or_error hblock rules.blocks
    · exact .inr ⟨e, h', bind_of_error herr⟩
  · exact .inr ⟨e, h', bind_of_error herr⟩

end Mute

namespace Scanner

/-- By a reader that shows nothing, a scan delivers nothing. -/
theorem drain_of_mute {r : Reader} (hmute : r.Mute) (rules : Rules) :
    (ofReader rules r).drain.1 = [] := by
  have hstep : ∃ e h', step rules { reader := r } = .error e h' := by
    rcases opening_of_mute (h := { reader := r }) hmute rules with hok | ⟨e, h', herr⟩
    · obtain ⟨e, r', hlook⟩ := hmute 1 Nat.one_pos
      have htake : take 1 { reader := r } = .error (.failed e) { reader := r' } := by
        rw [take, look, ask, hlook]
      exact ⟨_, _, (step_of_none hok).trans (bind_of_error htake)⟩
    · exact ⟨e, h', bind_of_error herr⟩
  obtain ⟨e, h', herr⟩ := hstep
  have hnext : nextComment rules { reader := r } = .error e h' := by
    rw [nextComment_eq_step, herr]
  exact drain_of_nextComment_error hnext

/-- Scans by rules among which the same wins deliver the same comments. -/
theorem drain_congr_winnerAt {octets : Octets} {charsetName : Text} {maxPeek chunkSize : Int}
    {r : Reader} (hr : Reader.ofOctets octets charsetName maxPeek chunkSize = .ok r)
    (hfit : rules.Fits maxPeek.toNat) (hfit' : rules'.Fits maxPeek.toNat)
    (hsame : ∀ before after, rules.winnerAt before after = rules'.winnerAt before after) :
    (ofReader rules r).drain.1 = (ofReader rules' r).drain.1 := by
  obtain ⟨-, hlimit, -, hpos⟩ := Reader.fields_ofOctets hr
  rcases Reader.delivers_or_mute hr with ⟨o, hdel⟩ | hmute
  · have hserves := Source.serves_ofReader hfit hlimit o.fault True
    have hserves' := Source.serves_ofReader hfit' hlimit o.fault True
    obtain ⟨segments, hseg⟩ := exists_segmentation rules o.fault.isSome [] o.runes
    obtain ⟨last, hdrain, -⟩ := (drain_of_segmentation (s := ofReader rules r) hserves hseg
      (goesOn_of_delivers hdel hpos True)).2 trivial
    obtain ⟨last', hdrain', -⟩ := (drain_of_segmentation (s := ofReader rules' r) hserves'
      (hseg.congr_winnerAt hsame) (goesOn_of_delivers hdel hpos True)).2 trivial
    rw [hdrain, hdrain']
  · rw [drain_of_mute hmute, drain_of_mute hmute]

/-- **The choice among the rules**: at each place of a decodable text that a scan gets to, it finds
what wins there, which it does find if its chunks can be taken; it goes over one rune if that is
nothing, else over the start of the winner and on in its body. By the same rules in another order a
scan of any octets delivers the same comments, if no two rules of a kind begin alike. -/
theorem choice_and_order {maxPeek : Int} (hfit : rules.Fits maxPeek.toNat) :
    (∀ {charset : Charset} {octets : Octets} {text charsetName : Text} (chunkSize : Int),
      charset.Decodes octets text → Charset.ofName charsetName = .ok charset →
      ∃ r, Reader.ofOctets octets charsetName maxPeek chunkSize = .ok r ∧
        ∀ {comments h}, GetsTo rules { reader := r } comments h →
          ∃ before after, text = before ++ after ∧
            h.At (.ofReader r none (chunkSize ≤ Reader.maxChunk)) before after ∧
            (∀ found h₁, opening rules h = .ok found h₁ → found = rules.winnerAt before after) ∧
            (chunkSize ≤ Reader.maxChunk → ∃ h₁,
              opening rules h = .ok (rules.winnerAt before after) h₁ ∧
              h₁.At (.ofReader r none (chunkSize ≤ Reader.maxChunk)) before after ∧
              (rules.winnerAt before after = none → ∀ c rest, after = c :: rest →
                ∃ h', step rules h = .ok none h' ∧
                  h'.At (.ofReader r none (chunkSize ≤ Reader.maxChunk)) (before ++ [c]) rest) ∧
              ∀ o, rules.winnerAt before after = some o →
                step rules h =
                  (take o.start.length >>= fun _ => o.body (1 + before.count '\n')) h₁)) ∧
    ∀ {rules' : Rules} {octets : Octets} {charsetName : Text} {chunkSize : Int} {r : Reader},
      rules.Permuted rules' → rules.DistinctStarts →
      Reader.ofOctets octets charsetName maxPeek chunkSize = .ok r →
      (ofReader rules r).drain.1 = (ofReader rules' r).drain.1 := by
  constructor
  · intro charset octets text charsetName chunkSize htext hname
    obtain ⟨r, hr, hlimit, hstart, -⟩ := exists_start htext chunkSize hname hfit.one_le
    have hserves := Source.serves_ofReader hfit hlimit none (chunkSize ≤ Reader.maxChunk)
    refine ⟨r, hr, fun {comments h} hgets => ?_⟩
    obtain ⟨before, after, rfl, hat⟩ := (hstart _ id).of_getsTo hserves hgets
    rw [List.nil_append] at hat
    refine ⟨before, after, rfl, hat, fun found h₁ hopening => (hat.of_opening hserves hopening).1,
      fun hchunk => ?_⟩
    rcases shows_opening hserves hat with ⟨h₁, hopening, hat₁⟩ | ⟨-, hend⟩
    · refine ⟨h₁, hopening, hat₁, ?_, fun o hwin => ?_⟩
      · rintro hwin c rest rfl
        exact (hat.step_code hserves hwin).exists_ok hchunk
      · have hline : h₁.reader.position.line = 1 + before.count '\n' := by
          rw [hat₁.position_eq, Position.line_after]
        rw [← hline]
        exact step_of_some (hwin ▸ hopening)
    · cases (hend hchunk).2
  · intro rules' octets charsetName chunkSize r hperm hdistinct hr
    exact drain_congr_winnerAt hr hfit (hperm.fits hfit) (hperm.winnerAt_eq hdistinct)

/-- Two kinds of line comments, in either order. -/
theorem choice_and_order_swap :
    (Charset.plain .utf8).Decodes [0x2F, 0x2F, 0x23, 0x61] "//#a".toList ∧
      Charset.ofName "utf-8".toList = .ok (.plain .utf8) ∧
      Rules.Fits { lines := [Language.slashLine, Language.hashLine] } (1024 : Int).toNat ∧
      Rules.Permuted { lines := [Language.slashLine, Language.hashLine] }
        { lines := [Language.hashLine, Language.slashLine] } ∧
      Rules.DistinctStarts { lines := [Language.slashLine, Language.hashLine] } ∧
      ∃ r h₁, Reader.ofOctets [0x2F, 0x2F, 0x23, 0x61] "utf-8".toList 1024 1 = .ok r ∧
        GetsTo { lines := [Language.slashLine, Language.hashLine] } { reader := r } []
          { reader := r } ∧
        opening { lines := [Language.slashLine, Language.hashLine] } { reader := r } =
          .ok (some (.line Language.slashLine)) h₁ ∧
        (ofReader { lines := [Language.slashLine, Language.hashLine] } r).drain.1 =
          (ofReader { lines := [Language.hashLine, Language.slashLine] } r).drain.1 := by
  have htext : (Charset.plain .utf8).Decodes [0x2F, 0x2F, 0x23, 0x61] "//#a".toList :=
    Charset.decodes_plain (decodes_of_ascii (by simp))
  have hname : Charset.ofName "utf-8".toList = .ok (.plain .utf8) := rfl
  have hfit : Rules.Fits { lines := [Language.slashLine, Language.hashLine] }
      (1024 : Int).toNat := by decide
  have hperm : Rules.Permuted { lines := [Language.slashLine, Language.hashLine] }
      { lines := [Language.hashLine, Language.slashLine] } :=
    ⟨.swap _ _ _, .refl _, .refl _⟩
  have hdistinct : Rules.DistinctStarts { lines := [Language.slashLine, Language.hashLine] } :=
    ⟨by decide, by decide, by decide⟩
  obtain ⟨hchoice, horder⟩ := choice_and_order hfit
  obtain ⟨r, hr, hplace⟩ := hchoice 1 htext hname
  obtain ⟨before, after, htext', hat, -, hfinds⟩ := hplace .here
  obtain ⟨-, -, -, hpos⟩ := Reader.fields_ofOctets hr
  obtain rfl := hat.before_eq_nil hpos
  obtain rfl : "//#a".toList = after := htext'
  obtain ⟨h₁, hopening, -⟩ := hfinds (by decide)
  exact ⟨htext, hname, hfit, hperm, hdistinct, r, h₁, hr, .here, hopening,
    horder hperm hdistinct hr⟩

end Scanner

end SourceNotes
