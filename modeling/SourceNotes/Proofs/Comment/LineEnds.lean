/-
The same text with other line ends.

`Text.withReturns` puts a carriage return before every newline. Rules whose delimiters
take no part in line ends (`Rules.AvoidLineEnds`) decide the same at every place of the
two texts; at a newline they move over one rune, so that they move over the carriage
return in front of it as well and decide once more.

* **`Decider.SkipsReturns`** — what a decision has to be like for that;
* **`Reads.withReturns`**, **`reads_of_withReturns`** — the same stretches are read in
  both texts;
* **`Segmentation.withReturns`** — the comments among the segments of both texts are the
  same.
-/
import SourceNotes.Proofs.Comment.Lookahead

namespace SourceNotes

open Head Text

namespace Text

/-- A text with a carriage return before every newline. -/
def withReturns (s : Text) : Text := s.flatMap fun c => if c = '\n' then ['\r', '\n'] else [c]

@[simp] theorem withReturns_nil : withReturns [] = [] := rfl

theorem withReturns_newline (s : Text) :
    withReturns ('\n' :: s) = '\r' :: '\n' :: withReturns s := rfl

theorem withReturns_cons_of_ne {c : Char} (hc : c ≠ '\n') (s : Text) :
    withReturns (c :: s) = c :: withReturns s := by
  rw [withReturns, List.flatMap_cons, if_neg hc]
  rfl

theorem withReturns_append (s t : Text) :
    withReturns (s ++ t) = withReturns s ++ withReturns t := List.flatMap_append

theorem withReturns_of_not_mem {s : Text} (h : '\n' ∉ s) : withReturns s = s := by
  induction s with
  | nil => rfl
  | cons c s ih =>
    rw [List.mem_cons, not_or] at h
    rw [withReturns_cons_of_ne (Ne.symm h.1), ih h.2]

theorem withReturns_eq_nil {s : Text} : withReturns s = [] ↔ s = [] := by
  constructor
  · intro h
    cases s with
    | nil => rfl
    | cons c s =>
      by_cases hc : c = '\n'
      · rw [hc, withReturns_newline] at h
        cases h
      · rw [withReturns_cons_of_ne hc] at h
        cases h
  · rintro rfl
    rfl

/-- There are as many newlines as before. -/
theorem count_withReturns (s : Text) : (withReturns s).count '\n' = s.count '\n' := by
  induction s with
  | nil => rfl
  | cons c s ih =>
    by_cases hc : c = '\n'
    · rw [hc, withReturns_newline, List.count_cons_of_ne (by decide), List.count_cons_self,
        List.count_cons_self, ih]
    · rw [withReturns_cons_of_ne hc, List.count_cons_of_ne hc, List.count_cons_of_ne hc, ih]

/-- The last line has no newline behind it, and so it is as before. -/
theorem lastLine_withReturns (s : Text) : lastLine (withReturns s) = lastLine s := by
  induction s using concatInduction with
  | nil => rfl
  | concat s c ih =>
    rw [withReturns_append, lastLine_concat]
    by_cases hc : c = '\n'
    · have hend : withReturns s ++ withReturns [c] = (withReturns s ++ ['\r']) ++ ['\n'] := by
        rw [hc, List.append_assoc]
        rfl
      rw [hend, lastLine_concat, if_pos rfl, if_pos hc]
    · rw [withReturns_cons_of_ne hc, withReturns_nil, lastLine_concat, if_neg hc, if_neg hc, ih]

/-- A text that takes no part in line ends. -/
def AvoidsLineEnds (s : Text) : Prop := '\r' ∉ s ∧ '\n' ∉ s

instance (s : Text) : Decidable (AvoidsLineEnds s) :=
  inferInstanceAs (Decidable ('\r' ∉ s ∧ '\n' ∉ s))

/-- Such a text stands at the same places. -/
theorem startsWith_withReturns {p : Text} (hp : AvoidsLineEnds p) (s : Text) :
    startsWith p (withReturns s) = startsWith p s := by
  induction p generalizing s with
  | nil => rfl
  | cons c p ih =>
    obtain ⟨hr, hn⟩ := hp
    rw [List.mem_cons, not_or] at hr hn
    cases s with
    | nil => rfl
    | cons d s =>
      by_cases hd : d = '\n'
      · -- Neither the newline nor the carriage return in its place begins like `p`.
        subst hd
        have hcr : (c == '\r') = false := beq_false_of_ne (Ne.symm hr.1)
        have hcn : (c == '\n') = false := beq_false_of_ne (Ne.symm hn.1)
        rw [withReturns_newline, startsWith, startsWith, List.isPrefixOf_cons_cons,
          List.isPrefixOf_cons_cons, hcr, hcn]
        rfl
      · have := ih ⟨hr.2, hn.2⟩ s
        rw [startsWith, startsWith] at this
        rw [withReturns_cons_of_ne hd, startsWith, startsWith, List.isPrefixOf_cons_cons,
          List.isPrefixOf_cons_cons, this]

/-- It does not stand in front of a line end. -/
theorem startsWith_newline {p : Text} (hp : AvoidsLineEnds p) (hne : p ≠ []) (s : Text) :
    startsWith p ('\n' :: s) = false := by
  obtain ⟨c, p, rfl⟩ := List.exists_cons_of_ne_nil hne
  have hcn : (c == '\n') = false := beq_false_of_ne fun h =>
    hp.2 (by rw [h]; exact List.mem_cons_self ..)
  rw [startsWith, List.isPrefixOf_cons_cons, hcn]
  rfl

end Text

theorem Text.AvoidsLineEnds.ne_newline {e : Escape} (h : AvoidsLineEnds e.chars) :
    e ≠ .char '\n' := by
  rintro rfl
  exact h.2 (List.mem_singleton_self _)

/-- No delimiter and no escape character takes part in line ends. -/
structure Rules.AvoidLineEnds (rules : Rules) : Prop where
  lines : ∀ r ∈ rules.lines, AvoidsLineEnds r.start
  blocks : ∀ r ∈ rules.blocks, AvoidsLineEnds r.start ∧ AvoidsLineEnds r.stop
  strings : ∀ r ∈ rules.strings,
    AvoidsLineEnds r.start ∧ AvoidsLineEnds r.stop ∧ AvoidsLineEnds r.escape.chars

variable {rules : Rules} {cut : Bool} {before after text s rest : Text} {o : Opening}

theorem Rules.AvoidLineEnds.avoidNewlines (h : rules.AvoidLineEnds) : rules.AvoidNewlines where
  lines r hr := (h.lines r hr).2
  blocks r hr := ⟨(h.blocks r hr).1.2, (h.blocks r hr).2.2⟩
  strings r hr :=
    ⟨(h.strings r hr).1.2, (h.strings r hr).2.1.2, (h.strings r hr).2.2.2⟩

/-! ### What is at a place -/

theorem BlockRule.openAfter_withReturns (rule : BlockRule) (before : Text) :
    rule.openAfter (withReturns before) = rule.openAfter before := by
  rw [openAfter, openAfter, lastLine_withReturns]

/-- The same rules stand at a place of both texts. -/
theorem winnerAt_withReturns (h : rules.AvoidLineEnds) (before after : Text) :
    rules.winnerAt (withReturns before) (withReturns after) = rules.winnerAt before after := by
  refine winnerAt_congr (fun r hr => ?_) (fun r hr => ?_) fun r hr => ?_
  · exact startsWith_withReturns (h.lines r hr) after
  · rw [r.openAfter_withReturns, startsWith_withReturns (h.blocks r hr).1]
  · exact startsWith_withReturns (h.strings r hr).1 after

theorem endsLine_withReturns (h : '\r' ∉ after) :
    endsLine (withReturns after) = endsLine after := by
  cases after with
  | nil => rfl
  | cons c after =>
    by_cases hc : c = '\n'
    · subst hc
      rfl
    · have hr : ('\r' == c) = false := beq_false_of_ne fun e =>
        h (by rw [e]; exact List.mem_cons_self ..)
      have hn : ('\n' == c) = false := beq_false_of_ne (Ne.symm hc)
      rw [withReturns_cons_of_ne hc]
      simp [endsLine, startsWith, List.isPrefixOf_cons_cons, hr, hn]

theorem unitAt_withReturns {e : Escape} {stop : Text} (he : AvoidsLineEnds e.chars)
    (hstop : AvoidsLineEnds stop) (after : Text) :
    e.unitAt stop (withReturns after) = e.unitAt stop after := by
  -- What an escape looks for is made of its character and the end of the string.
  cases e with
  | none => rfl
  | char c =>
    have hr : '\r' ≠ c := fun h => he.1 (by rw [h]; exact List.mem_singleton_self _)
    have hn : '\n' ≠ c := fun h => he.2 (by rw [h]; exact List.mem_singleton_self _)
    have hfirst : AvoidsLineEnds (c :: stop) := by simp [AvoidsLineEnds, hr, hn, hstop.1, hstop.2]
    have htwice : AvoidsLineEnds [c, c] := by simp [AvoidsLineEnds, hr, hn]
    rw [Escape.unitAt, Escape.unitAt, startsWith_withReturns hfirst, startsWith_withReturns htwice]
  | double =>
    have htwice : AvoidsLineEnds (stop ++ stop) := by simp [AvoidsLineEnds, hstop.1, hstop.2]
    rw [Escape.unitAt, Escape.unitAt, startsWith_withReturns htwice]

theorem unitAt_newline {e : Escape} {stop : Text} (he : AvoidsLineEnds e.chars)
    (hstop : AvoidsLineEnds stop) (hne : stop ≠ []) (after : Text) :
    e.unitAt stop ('\n' :: after) = [] := by
  cases e with
  | none => rfl
  | char c =>
    have hn : (c == '\n') = false := beq_false_of_ne fun h =>
      he.2 (by rw [h]; exact List.mem_singleton_self _)
    simp [Escape.unitAt, startsWith, List.isPrefixOf_cons_cons, hn]
  | double =>
    have htwice : AvoidsLineEnds (stop ++ stop) := by simp [AvoidsLineEnds, hstop.1, hstop.2]
    have hne' : stop ++ stop ≠ [] := fun h => hne (List.append_eq_nil_iff.1 h).1
    rw [Escape.unitAt, startsWith_newline htwice hne']
    rfl

/-! ### What is read -/

section Reads

variable {α β : Type} {d : Decider α β} {a a' : α} {b : β}

/-- Decisions that are the same in both texts. They move over a newline only alone, and then
decide the same behind it as behind the carriage return. -/
structure Decider.SkipsReturns (d : Decider α β) : Prop where
  same : ∀ a before after, '\r' ∉ after →
    d a (withReturns before) (withReturns after) = d a before after
  le_of_last : ∀ {a before after n b}, d a before after = .last n b → after ≠ [] →
    n ≤ after.length
  le_of_more : ∀ {a before after n a'}, d a before after = .more n a' → after ≠ [] →
    n ≤ after.length
  last_avoids : ∀ {a before u rest b}, d a before (u ++ rest) = .last u.length b → '\n' ∉ u
  more_avoids : ∀ {a before u rest a'}, d a before (u ++ rest) = .more u.length a' →
    '\n' ∉ u ∨ u = ['\n'] ∧ ∀ before' rest', d a before' ('\n' :: rest') = .more 1 a

theorem Decider.SkipsReturns.same_append (hd : d.SkipsReturns) {u : Text} (a : α) (before : Text)
    (hr : '\r' ∉ u ++ rest) (hu : '\n' ∉ u) :
    d a (withReturns before) (u ++ withReturns rest) = d a before (u ++ rest) := by
  have := hd.same a before (u ++ rest) hr
  rwa [withReturns_append, withReturns_of_not_mem hu] at this

/-- What is read of a text is read of the other one. -/
theorem Reads.withReturns (hd : d.SkipsReturns) (h : Reads d cut a before s rest b)
    (hr : '\r' ∉ s ++ rest) :
    Reads d cut a (withReturns before) (withReturns s) (withReturns rest) b := by
  -- One move in this text is one move in the other, or two of them at a newline.
  induction h with
  | @stop a before rest b hdec hcut =>
    refine .stop ?_ fun hc hnil => hcut hc (withReturns_eq_nil.1 hnil)
    rw [hd.same a before rest hr, hdec]
  | @last a before s rest b hdec hs =>
    have hn := hd.last_avoids hdec
    rw [withReturns_of_not_mem hn]
    exact .last ((hd.same_append a before hr hn).trans hdec) hs
  | @more a a' before u s rest b hdec hu hnext ih =>
    rw [List.append_assoc] at hr
    have ih := ih fun h => hr (List.mem_append_right _ h)
    rw [withReturns_append] at ih ⊢
    rcases hd.more_avoids hdec with hn | ⟨rfl, hnewline⟩
    · rw [withReturns_of_not_mem hn] at ih ⊢
      refine .more ?_ hu ih
      rw [← withReturns_append]
      exact (hd.same_append a before hr hn).trans hdec
    · -- One move over the carriage return, one over the newline.
      obtain rfl : a' = a := by
        rw [List.singleton_append, hnewline] at hdec
        exact ((Decision.more.inj hdec).2).symm
      have hsecond : Reads d cut a' (Text.withReturns before ++ ['\r'])
          (['\n'] ++ Text.withReturns s) (Text.withReturns rest) b := by
        refine .more (hnewline _ _) (List.cons_ne_nil _ _) ?_
        rw [List.append_assoc]
        exact ih
      refine .more (u := ['\r']) ?_ (List.cons_ne_nil _ _) hsecond
      have := hd.same a' before _ hr
      rw [hdec, withReturns_append, withReturns_append] at this
      exact this

/-- Where decisions move over a newline, so does what is read. -/
theorem Reads.of_newline {t : Text} (h : Reads d cut a before s rest b)
    (hnewline : ∀ before' rest', d a before' ('\n' :: rest') = .more 1 a)
    (heq : s ++ rest = '\n' :: t) :
    ∃ s', s = '\n' :: s' ∧ s' ++ rest = t ∧ Reads d cut a (before ++ ['\n']) s' rest b := by
  cases h with
  | stop hdec _ =>
    rw [List.nil_append] at heq
    rw [heq, hnewline] at hdec
    cases hdec
  | last hdec _ =>
    rw [heq, hnewline] at hdec
    cases hdec
  | more hdec _ hnext =>
    rw [List.append_assoc] at heq
    rw [heq, hnewline] at hdec
    obtain ⟨hlen, rfl⟩ := Decision.more.inj hdec
    obtain ⟨c, rfl⟩ := List.length_eq_one_iff.1 hlen.symm
    obtain ⟨rfl, htail⟩ := List.cons.inj heq
    exact ⟨_, rfl, htail, hnext⟩

/-- What is read of the other text is read of this one. -/
theorem reads_of_withReturns (hd : d.SkipsReturns) {s' rest' : Text}
    (h : Reads d cut a (withReturns before) s' rest' b) (heq : s' ++ rest' = withReturns after)
    (hr : '\r' ∉ after) :
    ∃ s rest, after = s ++ rest ∧ s' = withReturns s ∧ rest' = withReturns rest ∧
      Reads d cut a before s rest b := by
  -- By the length of this text, as the moves of the other one do not all have a counterpart.
  induction hn : after.length using Nat.strongRecOn generalizing a before after s' rest' with
  | ind n ih =>
    subst hn
    -- A move in the other text that avoids newlines is the same move in this one.
    have hmove {u v : Text} (huv : u ++ v = withReturns after) (hu : u ≠ [])
        (hle : after ≠ [] → u.length ≤ after.length) :
        ∃ w rest, after = w ++ rest ∧ w.length = u.length ∧
          ('\n' ∉ w → w = u ∧ v = withReturns rest) := by
      have hne : after ≠ [] := by
        rintro rfl
        exact hu (List.append_eq_nil_iff.1 huv).1
      have hlen : (after.take u.length).length = u.length := by
        rw [List.length_take]
        exact Nat.min_eq_left (hle hne)
      refine ⟨_, _, (List.take_append_drop u.length after).symm, hlen, fun hw => ?_⟩
      rw [← List.take_append_drop u.length after, withReturns_append,
        withReturns_of_not_mem hw] at huv
      obtain ⟨hu', hv⟩ := List.append_inj huv hlen.symm
      exact ⟨hu'.symm, hv⟩
    cases h with
    | stop hdec hcut =>
      rw [List.nil_append] at heq
      subst heq
      rw [hd.same a before after hr] at hdec
      exact ⟨[], after, rfl, rfl, rfl, .stop hdec fun hc hnil => hcut hc (by rw [hnil]; rfl)⟩
    | last hdec hs =>
      rw [heq, hd.same a before after hr] at hdec
      obtain ⟨w, rest, rfl, hlen, havoid⟩ := hmove heq hs (hd.le_of_last hdec)
      rw [← hlen] at hdec
      have hw := hd.last_avoids hdec
      obtain ⟨rfl, rfl⟩ := havoid hw
      exact ⟨w, rest, rfl, (withReturns_of_not_mem hw).symm, rfl, .last hdec hs⟩
    | @more _ a' _ u s rest' _ hdec hu hnext =>
      rw [List.append_assoc] at heq
      rw [heq, hd.same a before after hr] at hdec
      obtain ⟨w, tail, rfl, hlen, havoid⟩ := hmove heq hu (hd.le_of_more hdec)
      have hlt : tail.length < (w ++ tail).length := by
        have := List.length_pos_iff.2 hu
        rw [List.length_append]
        omega
      have hrtail : '\r' ∉ tail := fun h => hr (List.mem_append_right _ h)
      rw [← hlen] at hdec
      rcases hd.more_avoids hdec with hw | ⟨rfl, hnewline⟩
      · obtain ⟨rfl, hv⟩ := havoid hw
        have hbefore : Text.withReturns before ++ w = Text.withReturns (before ++ w) := by
          rw [withReturns_append, withReturns_of_not_mem hw]
        rw [hbefore] at hnext
        obtain ⟨s₀, rest₀, rfl, rfl, rfl, hreads⟩ := ih _ hlt hnext hv hrtail rfl
        refine ⟨w ++ s₀, rest₀, (List.append_assoc ..).symm, ?_, rfl, .more hdec hu hreads⟩
        rw [withReturns_append, withReturns_of_not_mem hw]
      · -- The move is over the carriage return, and the one that follows over the newline.
        obtain rfl : a' = a := by
          rw [List.singleton_append, hnewline] at hdec
          exact ((Decision.more.inj hdec).2).symm
        obtain ⟨c, rfl⟩ := List.length_eq_one_iff.1 hlen.symm
        obtain ⟨rfl, htail⟩ := List.cons.inj heq
        obtain ⟨s₀, rfl, heq₀, hnext₀⟩ := hnext.of_newline hnewline htail
        have hbefore : Text.withReturns before ++ ['\r'] ++ ['\n'] =
            Text.withReturns (before ++ ['\n']) := by
          rw [withReturns_append, List.append_assoc]
          rfl
        rw [hbefore] at hnext₀
        obtain ⟨s₁, rest₁, rfl, rfl, rfl, hreads⟩ := ih _ hlt hnext₀ heq₀ hrtail rfl
        exact ⟨'\n' :: s₁, rest₁, rfl, rfl, rfl,
          .more (u := ['\n']) hdec (List.cons_ne_nil _ _) hreads⟩

end Reads

/-! ### The decisions of a scan -/

theorem skipsReturns_decideLine : decideLine.SkipsReturns where
  same _ _ after hr := by rw [decideLine, decideLine, endsLine_withReturns hr]
  le_of_last h := ((decides_lineStep (Source.allows_mute 2)).moves_last h).le_length
  le_of_more h := ((decides_lineStep (Source.allows_mute 2)).moves_more h).le_length
  last_avoids h := by
    unfold decideLine at h
    split at h <;> cases h
  more_avoids h := by
    unfold decideLine at h
    split at h
    · cases h
    · next hends =>
      exact .inl (newline_not_mem_of_endsLine (Decision.more.inj h).1.symm hends)

theorem skipsReturns_decideBlock {rule : BlockRule} (hstart : AvoidsLineEnds rule.start)
    (hstop : AvoidsLineEnds rule.stop) : (decideBlock rule).SkipsReturns where
  same depth before after _ := by
    unfold decideBlock
    rw [rule.openAfter_withReturns, startsWith_withReturns hstart, startsWith_withReturns hstop]
  le_of_last h := ((decides_blockStep (Source.allows_mute 2)
    fun n _ => Source.allows_mute n).moves_last h).le_length
  le_of_more h := ((decides_blockStep (Source.allows_mute 2)
    fun n _ => Source.allows_mute n).moves_more h).le_length
  last_avoids h := by
    unfold decideBlock at h
    split at h
    · next hs =>
      split at h
      · rw [← eq_of_startsWith (Bool.and_eq_true _ _ ▸ hs).2 (Decision.last.inj h).1]
        exact hstop.2
      · cases h
    · split at h <;> cases h
  more_avoids := by
    intro depth before u rest a' h
    have hnewline (before' rest' : Text) :
        decideBlock rule depth before' ('\n' :: rest') = .more 1 depth := by
      unfold decideBlock
      rw [startsWith_newline hstart rule.start_ne_nil, startsWith_newline hstop rule.stop_ne_nil,
        Bool.and_false, Bool.and_false]
      rfl
    unfold decideBlock at h
    split at h
    · next hs =>
      split at h
      · cases h
      · rw [← eq_of_startsWith (Bool.and_eq_true _ _ ▸ hs).2 (Decision.more.inj h).1]
        exact .inl hstop.2
    · split at h
      · next hs =>
        rw [← eq_of_startsWith (Bool.and_eq_true _ _ ▸ hs).2 (Decision.more.inj h).1]
        exact .inl hstart.2
      · rcases eq_newline_or_not_mem (Decision.more.inj h).1.symm with hu | hu
        · exact .inr ⟨hu, hnewline⟩
        · exact .inl hu

section

variable {rule : StringRule} (hstop : AvoidsLineEnds rule.stop)
  (hescape : AvoidsLineEnds rule.escape.chars)

include hstop hescape

theorem decideString_withReturns {β : Type} (b : β) (before after : Text) :
    decideString rule b () (withReturns before) (withReturns after) =
      decideString rule b () before after := by
  rw [decideString, decideString, unitAt_withReturns hescape hstop, startsWith_withReturns hstop]

theorem decideString_newline {β : Type} (b : β) (before after : Text) :
    decideString rule b () before ('\n' :: after) = .more 1 () := by
  rw [decideString, unitAt_newline hescape hstop rule.stop_ne_nil,
    startsWith_newline hstop rule.stop_ne_nil, if_neg (not_not_intro rfl)]
  rfl

theorem skipsReturns_decideString : (decideString rule ()).SkipsReturns where
  same _ before after _ := decideString_withReturns hstop hescape () before after
  le_of_last h := ((decides_stringStep (Source.allows_mute 2)
    fun n _ => Source.allows_mute n).moves_last h).le_length
  le_of_more h := ((decides_stringStep (Source.allows_mute 2)
    fun n _ => Source.allows_mute n).moves_more h).le_length
  last_avoids h := by
    rw [eq_stop_of_decideString_last h]
    exact hstop.2
  more_avoids h := by
    rcases newline_of_decideString_more hstop.2 hescape.ne_newline h with hu | hu
    · exact .inr ⟨hu, decideString_newline hstop hescape ()⟩
    · exact .inl hu

theorem skipsReturns_decideLineOrString : (decideLineOrString rule).SkipsReturns where
  same _ before after hr := by
    rw [decideLineOrString, decideLineOrString, endsLine_withReturns hr,
      decideString_withReturns hstop hescape]
  le_of_last h := ((decides_lineOrStringStep (Source.allows_mute 2)
    fun n _ => Source.allows_mute n).moves_last h).le_length
  le_of_more h := ((decides_lineOrStringStep (Source.allows_mute 2)
    fun n _ => Source.allows_mute n).moves_more h).le_length
  last_avoids h := by
    unfold decideLineOrString at h
    split at h
    · cases h
    · rw [eq_stop_of_decideString_last h]
      exact hstop.2
  more_avoids h := by
    unfold decideLineOrString at h
    split at h
    · cases h
    · next hends =>
      rcases newline_of_decideString_more hstop.2 hescape.ne_newline h with rfl | hu
      · exact absurd rfl hends
      · exact .inl hu

end

/-! ### Segments -/

/-- The same comment in the text with carriage returns. -/
def Comment.withReturns (c : Comment) : Comment := { c with text := c.text.withReturns }

variable {form : Option Comment.Form}

/-- The decisions that take part in what an opening goes on with skip carriage returns. -/
theorem Opening.Closes.withReturns (h : rules.AvoidLineEnds) (hrules : o.IsOf rules)
    (hclose : o.Closes cut before s rest form) (hr : '\r' ∉ s ++ rest) :
    o.Closes cut (withReturns before) (withReturns s) (withReturns rest) form := by
  cases hclose with
  | line hreads => exact .line (hreads.withReturns skipsReturns_decideLine hr)
  | block hreads =>
    obtain ⟨hstart, hstop⟩ := h.blocks _ hrules
    exact .block (hreads.withReturns (skipsReturns_decideBlock hstart hstop) hr)
  | string hreads =>
    obtain ⟨-, hstop, hescape⟩ := h.strings _ hrules
    exact .string (hreads.withReturns (skipsReturns_decideString hstop hescape) hr)
  | lineNotString hreads =>
    obtain ⟨-, hstop, hescape⟩ := h.strings _ hrules.2
    exact .lineNotString (hreads.withReturns (skipsReturns_decideLineOrString hstop hescape) hr)
  | stringNotLine hreads =>
    obtain ⟨-, hstop, hescape⟩ := h.strings _ hrules.2
    exact .stringNotLine (hreads.withReturns (skipsReturns_decideLineOrString hstop hescape) hr)

theorem Opening.exists_closes_of_withReturns (h : rules.AvoidLineEnds) (hrules : o.IsOf rules)
    {s' rest' : Text} (hclose : o.Closes cut (withReturns before) s' rest' form)
    (heq : s' ++ rest' = withReturns after) (hr : '\r' ∉ after) :
    ∃ s rest, after = s ++ rest ∧ o.Closes cut before s rest form := by
  cases hclose with
  | line hreads =>
    obtain ⟨s, rest, hs, -, -, hreads⟩ := reads_of_withReturns skipsReturns_decideLine hreads heq hr
    exact ⟨s, rest, hs, .line hreads⟩
  | block hreads =>
    obtain ⟨hstart, hstop⟩ := h.blocks _ hrules
    obtain ⟨s, rest, hs, -, -, hreads⟩ :=
      reads_of_withReturns (skipsReturns_decideBlock hstart hstop) hreads heq hr
    exact ⟨s, rest, hs, .block hreads⟩
  | string hreads =>
    obtain ⟨-, hstop, hescape⟩ := h.strings _ hrules
    obtain ⟨s, rest, hs, -, -, hreads⟩ :=
      reads_of_withReturns (skipsReturns_decideString hstop hescape) hreads heq hr
    exact ⟨s, rest, hs, .string hreads⟩
  | lineNotString hreads =>
    obtain ⟨-, hstop, hescape⟩ := h.strings _ hrules.2
    obtain ⟨s, rest, hs, -, -, hreads⟩ :=
      reads_of_withReturns (skipsReturns_decideLineOrString hstop hescape) hreads heq hr
    exact ⟨s, rest, hs, .lineNotString hreads⟩
  | stringNotLine hreads =>
    obtain ⟨-, hstop, hescape⟩ := h.strings _ hrules.2
    obtain ⟨s, rest, hs, -, -, hreads⟩ :=
      reads_of_withReturns (skipsReturns_decideLineOrString hstop hescape) hreads heq hr
    exact ⟨s, rest, hs, .stringNotLine hreads⟩

/-- The text with carriage returns has the same comments. -/
theorem Segmentation.withReturns (h : rules.AvoidLineEnds) {segments : List Segment}
    (hseg : Segmentation rules cut before text segments) (hr : '\r' ∉ text) :
    ∃ segments', Segmentation rules cut (withReturns before) (withReturns text) segments' ∧
      commentsOf segments' = (commentsOf segments).map Comment.withReturns := by
  induction hseg with
  | done => exact ⟨[], .done, rfl⟩
  | @code before rest c segments hwin hnext ih =>
    obtain ⟨segments', hseg', hcomments⟩ := ih fun hmem => hr (List.mem_cons_of_mem _ hmem)
    rw [withReturns_append] at hseg'
    rw [← winnerAt_withReturns h] at hwin
    by_cases hc : c = '\n'
    · subst hc
      -- Two runes of code, the carriage return and the newline.
      refine ⟨.code '\r' :: .code '\n' :: segments', .code hwin (.code ?_ ?_), hcomments⟩
      · exact h.avoidNewlines.winnerAt_newline _ _
      · rw [List.append_assoc]
        exact hseg'
    · rw [withReturns_cons_of_ne hc] at hwin hseg' ⊢
      exact ⟨.code c :: segments', .code hwin hseg', hcomments⟩
  | @closed before s rest o form segments hwin hclose hnext ih =>
    have hrules := Opening.isOf_of_winnerAt hwin
    have hstart := withReturns_of_not_mem
      (h.avoidNewlines.not_mem_marks _ hrules.start_mem_marks)
    have hrs : '\r' ∉ s ++ rest := fun hmem => hr (List.mem_append_right _ hmem)
    obtain ⟨segments', hseg', hcomments⟩ := ih fun hmem => hrs (List.mem_append_right _ hmem)
    have hclose' := hclose.withReturns h hrules hrs
    rw [← winnerAt_withReturns h] at hwin
    simp only [withReturns_append, hstart] at hwin hclose' hseg' ⊢
    refine ⟨_, .closed hwin hclose' hseg', ?_⟩
    cases form with
    | none => exact hcomments
    | some form =>
      refine List.cons_eq_cons.2 ⟨?_, hcomments⟩
      rw [count_withReturns, Comment.withReturns, withReturns_append, hstart]
  | @lost before s o hwin hopen =>
    have hrules := Opening.isOf_of_winnerAt hwin
    have hstart := withReturns_of_not_mem
      (h.avoidNewlines.not_mem_marks _ hrules.start_mem_marks)
    have hrs : '\r' ∉ s := fun hmem => hr (List.mem_append_right _ hmem)
    rw [← winnerAt_withReturns h] at hwin
    rw [withReturns_append, hstart] at hwin ⊢
    refine ⟨_, .lost hwin fun s' rest' form hs hclose => ?_, rfl⟩
    -- An end in the other text would be one in this text.
    have hbefore : Text.withReturns before ++ o.start = Text.withReturns (before ++ o.start) := by
      rw [withReturns_append, hstart]
    rw [hbefore] at hclose
    obtain ⟨s₀, rest₀, hs₀, hclose₀⟩ :=
      Opening.exists_closes_of_withReturns h hrules hclose hs.symm hrs
    exact hopen s₀ rest₀ form hs₀ hclose₀

end SourceNotes
