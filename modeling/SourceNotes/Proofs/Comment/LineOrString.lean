/-
What begins like a line comment and like a string.

Behind a delimiter that opens both, a scan reads on, over what is escaped together in the string
and else over one rune at a time. What it comes by first decides: a line end makes it a comment,
the end of the string a string.

* **`StringRule.Passes`** — the places that the reading comes by;
* **`StringRule.reads_lineEnd`**, **`StringRule.reads_stop`** — a scan ends at the first of them
  that decides;
* **`Scanner.step_lineOrString`** — the comment or the string, and that nothing of it shows up in
  later comments.
-/
import SourceNotes.Proofs.Comment.Steps
import SourceNotes.Proofs.Text.First

namespace SourceNotes

open Head Text Charset

/-! ### Places on the way -/

namespace StringRule

/-- Reading `u` and then `v`, one comes by the place between them: where a line does not end, what
is escaped together is read at once, and else one rune. -/
inductive Passes (rule : StringRule) : Text → Text → Prop
  | here {v : Text} : Passes rule [] v
  | unit {w u v : Text} (hends : endsLine (w ++ (u ++ v)) = false) (hw : w ≠ [])
      (hunit : rule.escape.unitAt rule.stop (w ++ (u ++ v)) = w) (hnext : Passes rule u v) :
      Passes rule (w ++ u) v
  | rune {c : Char} {u v : Text}
      (hone : endsLine (c :: (u ++ v)) = true ∨
        rule.escape.unitAt rule.stop (c :: (u ++ v)) = [])
      (hnext : Passes rule u v) : Passes rule (c :: u) v

/-- The place between the two texts is one on the way where a line ends. -/
def MeetsLineEnd (rule : StringRule) (u v : Text) : Prop := rule.Passes u v ∧ endsLine v = true

/-- The place between the two texts is one on the way where nothing is escaped, but the end of the
string stands. -/
def MeetsStop (rule : StringRule) (u v : Text) : Prop :=
  rule.Passes u v ∧ rule.escape.unitAt rule.stop v = [] ∧ startsWith rule.stop v = true

variable {rule : StringRule} {before s rest u v : Text} {cut : Bool}

/-- The reading comes by the end of the text. -/
theorem passes_end (rule : StringRule) (s : Text) : rule.Passes s [] := by
  induction hn : s.length using Nat.strongRecOn generalizing s with
  | ind n ih =>
    subst hn
    rcases s with _ | ⟨c, s⟩
    · exact .here
    · by_cases hone : endsLine (c :: s) = true ∨ rule.escape.unitAt rule.stop (c :: s) = []
      · refine .rune ?_ (ih s.length (Nat.lt_succ_self _) s rfl)
        rwa [List.append_nil]
      · obtain ⟨hends, hunit⟩ := not_or.1 hone
        obtain ⟨t, ht⟩ :=
          List.isPrefixOf_iff_prefix.1 (unitAt_spec rule.escape rule.stop (c :: s)).1
        generalize hw : rule.escape.unitAt rule.stop (c :: s) = w at hunit ht
        have hlt : t.length < (c :: s).length := by
          have := List.length_pos_iff.2 hunit
          rw [← ht, List.length_append]
          omega
        rw [← ht] at hends hw ⊢
        refine .unit ?_ hunit ?_ (ih t.length hlt t rfl)
        · rw [List.append_nil]
          exact Bool.eq_false_iff.2 hends
        · rwa [List.append_nil]

theorem exists_first_lineEnd (rule : StringRule) (after : Text) :
    ∃ s rest, after = s ++ rest ∧ First rule.MeetsLineEnd s rest := by
  obtain ⟨s, rest, htext, hfirst⟩ := exists_first (P := rule.MeetsLineEnd) (v := [])
    ⟨rule.passes_end after, rfl⟩
  rw [List.append_nil] at htext
  exact ⟨s, rest, htext, hfirst⟩

/-! ### What a scan reads -/

/-- The place between the two texts is one on the way that decides what it is. -/
def Meets (rule : StringRule) (u v : Text) : Prop := rule.MeetsLineEnd u v ∨ rule.MeetsStop u v

theorem Meets.passes (h : rule.Meets u v) : rule.Passes u v := h.elim And.left And.left

/-- Whether a place decides is a matter of what is behind it. -/
theorem Meets.of_passes {u' : Text} (h : rule.Meets u v) (hpass : rule.Passes u' v) :
    rule.Meets u' v :=
  h.imp (fun h => ⟨hpass, h.2⟩) fun h => ⟨hpass, h.2⟩

/-- Where a place decides that is not the first, one has moved on. -/
theorem not_first_meets {w : Text} (hw : w ≠ []) (h : First rule.Meets (w ++ u) v)
    (hmeets : rule.Meets [] (w ++ (u ++ v))) : False := by
  have hle := h.least [] _ (List.append_assoc ..) hmeets
  have := List.length_pos_iff.2 hw
  rw [List.length_append, List.length_nil] at hle
  omega

theorem decideLineOrString_of_lineEnd (hends : endsLine v = true) :
    decideLineOrString rule () before v = .stop true := if_pos hends

theorem decideLineOrString_of_unit (before : Text) (hends : endsLine v = false)
    (hunit : rule.escape.unitAt rule.stop v ≠ []) :
    decideLineOrString rule () before v =
      .more (rule.escape.unitAt rule.stop v).length () := by
  rw [decideLineOrString, if_neg (Bool.eq_false_iff.1 hends), decideString, if_pos hunit]

theorem decideLineOrString_of_stop (hends : endsLine v = false)
    (hunit : rule.escape.unitAt rule.stop v = []) (hstop : startsWith rule.stop v = true) :
    decideLineOrString rule () before v = .last rule.stop.length false := by
  rw [decideLineOrString, if_neg (Bool.eq_false_iff.1 hends), decideString,
    if_neg (not_not_intro hunit), if_pos hstop]

theorem decideLineOrString_of_rune (before : Text) (hends : endsLine v = false)
    (hunit : rule.escape.unitAt rule.stop v = []) (hstop : ¬ startsWith rule.stop v = true) :
    decideLineOrString rule () before v = .more 1 () := by
  rw [decideLineOrString, if_neg (Bool.eq_false_iff.1 hends), decideString,
    if_neg (not_not_intro hunit), if_neg hstop]

/-- Up to the first place that decides a scan moves on, and reads what it reads from there. -/
theorem reads_of_first {t : Text} {b : Bool} (h : First rule.Meets u v) (htext : v = t ++ rest)
    (hthere : ∀ before, Reads (decideLineOrString rule) cut () before t rest b) :
    Reads (decideLineOrString rule) cut () before (u ++ t) rest b := by
  have hpass := h.holds.passes
  induction hpass generalizing before with
  | here => exact hthere before
  | @unit w u v hends hw hunit hnext ih =>
    have hbehind : First rule.Meets u v := by
      refine h.of_prepend.of_imp (h.holds.of_passes hnext) fun x y hxy hmeets => ?_
      rw [hxy] at hends hunit
      exact hmeets.of_passes (.unit hends hw hunit hmeets.passes)
    have hd := decideLineOrString_of_unit before hends (by rwa [hunit])
    rw [hunit, htext, ← List.append_assoc u] at hd
    rw [List.append_assoc]
    exact .more hd hw (ih hbehind htext)
  | @rune c u v hone hnext ih =>
    have hbehind : First rule.Meets u v := by
      refine h.of_prepend (w := [c]) |>.of_imp (h.holds.of_passes hnext) fun x y hxy hmeets => ?_
      rw [hxy] at hone
      exact hmeets.of_passes (.rune hone hmeets.passes)
    -- The place in front of `c` comes before the first one that decides.
    have hno : ¬ rule.Meets [] (c :: (u ++ v)) := not_first_meets (List.cons_ne_nil c []) h
    have hends : endsLine (c :: (u ++ v)) = false :=
      Bool.eq_false_iff.2 fun hends => hno (.inl ⟨.here, hends⟩)
    have hunit : rule.escape.unitAt rule.stop (c :: (u ++ v)) = [] :=
      hone.resolve_left (Bool.eq_false_iff.1 hends)
    have hd := decideLineOrString_of_rune before hends hunit
      fun hstop => hno (.inr ⟨.here, hunit, hstop⟩)
    rw [htext, ← List.append_assoc u] at hd
    exact .more (u := [c]) hd (List.cons_ne_nil _ _) (ih hbehind htext)

/-- A scan that comes by a line end first reads a comment up to it. -/
theorem reads_lineEnd (h : First rule.MeetsLineEnd u v)
    (hstop : ∀ x y, u ++ v = x ++ y → First rule.MeetsStop x y → u.length ≤ x.length)
    (hcut : cut = true → v ≠ []) : Reads (decideLineOrString rule) cut () before u v true := by
  have hreads : Reads (decideLineOrString rule) cut () before (u ++ []) v true :=
    reads_of_first (h.or hstop) (List.nil_append v).symm
      fun before => .stop (decideLineOrString_of_lineEnd h.holds.2) hcut
  rwa [List.append_nil] at hreads

/-- A scan that comes by the end of the string first reads a string. -/
theorem reads_stop (h : First rule.MeetsStop u (rule.stop ++ rest))
    (hline : ∀ x y, u ++ (rule.stop ++ rest) = x ++ y → First rule.MeetsLineEnd x y →
      u.length < x.length) :
    Reads (decideLineOrString rule) cut () before (u ++ rule.stop) rest false := by
  have hfirst : First rule.Meets u (rule.stop ++ rest) :=
    (h.or fun x y hxy hx => Nat.le_of_lt (hline x y hxy hx)).congr fun _ _ _ => or_comm
  -- The line does not end there, or it would have ended no later than that.
  have hends : endsLine (rule.stop ++ rest) = false := by
    refine Bool.eq_false_iff.2 fun hends => ?_
    obtain ⟨x, y, hxy, hx⟩ := exists_first (P := rule.MeetsLineEnd) ⟨h.holds.1, hends⟩
    have hlt := hline x y hxy hx
    have hle := hx.least u _ hxy.symm ⟨h.holds.1, hends⟩
    omega
  exact reads_of_first hfirst rfl fun before =>
    .last (decideLineOrString_of_stop hends h.holds.2.1 h.holds.2.2) rule.stop_ne_nil

end StringRule

/-! ### Scans -/

namespace Scanner

variable {rules : Rules}

/-- **What begins like a line comment and like a string**: at a head of a decodable text where both
win, the run behind the start comes by a line end. If it comes by the end of the string no earlier,
the run up to the line end is one comment, on the line of the head, and the scan goes on in code at
the line end; else there is no comment, and the scan goes on in code behind the end of the string.
All comments after that stand behind where it goes on. -/
theorem step_lineOrString {charset : Charset} {octets : Octets} {text charsetName : Text}
    {maxPeek : Int} (htext : charset.Decodes octets text) (chunkSize : Int)
    (hname : Charset.ofName charsetName = .ok charset) (hfit : rules.Fits maxPeek.toNat) :
    ∃ r, Reader.ofOctets octets charsetName maxPeek chunkSize = .ok r ∧
      ∀ {comments h h₁ rule literal}, GetsTo rules { reader := r } comments h →
        opening rules h = .ok (some (.lineOrString rule literal)) h₁ →
        ∃ before after, text = before ++ (rule.start ++ after) ∧
          h.At (.ofReader r none True) before (rule.start ++ after) ∧
          rules.winnerAt before (rule.start ++ after) = some (.lineOrString rule literal) ∧
          (∃ s rest, after = s ++ rest ∧ First literal.MeetsLineEnd s rest) ∧
          (∀ s rest, after = s ++ rest → First literal.MeetsLineEnd s rest →
            (∀ u v, after = u ++ v → First literal.MeetsStop u v → s.length ≤ u.length) →
            ∃ c h', c = ⟨rule.start ++ s, (1 + before.count '\n' : Nat), .line (some rule)⟩ ∧
              step rules h = .ok (some c) h' ∧
              h'.At (.ofReader r none True) (before ++ (rule.start ++ s)) rest ∧
              (ofReader rules r).drain =
                (comments ++ c :: (ofHead rules h').drain.1, (ofHead rules h').drain.2) ∧
              StandIn (before ++ (rule.start ++ s)) rest (ofHead rules h').drain.1) ∧
          (∀ s rest, after = s ++ (literal.stop ++ rest) →
            First literal.MeetsStop s (literal.stop ++ rest) →
            (∀ u v, after = u ++ v → First literal.MeetsLineEnd u v → s.length < u.length) →
            ∃ h', step rules h = .ok none h' ∧
              h'.At (.ofReader r none True) (before ++ (rule.start ++ (s ++ literal.stop))) rest ∧
              (ofReader rules r).drain =
                (comments ++ (ofHead rules h').drain.1, (ofHead rules h').drain.2) ∧
              StandIn (before ++ (rule.start ++ (s ++ literal.stop))) rest
                (ofHead rules h').drain.1) := by
  obtain ⟨r, hr, hserves, hplace⟩ := exists_opening htext chunkSize hname hfit
  refine ⟨r, hr, fun {comments h h₁ rule literal} hgets hopening => ?_⟩
  obtain ⟨before, after, rfl, hat, hwin⟩ := hplace hgets hopening
  have hdrain : (ofReader rules r).drain =
      (comments ++ (ofHead rules h).drain.1, (ofHead rules h).drain.2) := drain_of_getsTo hgets
  refine ⟨before, after, rfl, hat, hwin, literal.exists_first_lineEnd after, ?_, ?_⟩
  · rintro s rest rfl hline hstop
    have hclose : (Opening.lineOrString rule literal).Closes (Source.ofReader r none True).cut
        (before ++ rule.start) s rest (some (.line (some rule))) :=
      .lineNotString (StringRule.reads_lineEnd hline hstop nofun)
    obtain ⟨h', hstep, hat'⟩ := (hat.step_closed hserves hwin hclose).exists_ok trivial
    refine ⟨_, h', rfl, hstep, hat', ?_, hat'.drain_standIn hserves⟩
    rw [hdrain, drain_of_comment (next_of_step_some hstep)]
    rfl
  · rintro s rest rfl hstop hline
    have hclose : (Opening.lineOrString rule literal).Closes (Source.ofReader r none True).cut
        (before ++ rule.start) (s ++ literal.stop) rest none :=
      .stringNotLine (StringRule.reads_stop hstop hline)
    rw [← List.append_assoc s] at hwin hat
    obtain ⟨h', hstep, hat'⟩ := (hat.step_closed hserves hwin hclose).exists_ok trivial
    refine ⟨h', hstep, hat', ?_, hat'.drain_standIn hserves⟩
    rw [hdrain, drain_congr (next_of_step_none hstep)]

/-- A comment that opens like a string which its line does not end. -/
theorem step_lineOrString_comment :
    (Charset.plain .utf8).Decodes [0x22, 0x61, 0x0A, 0x62] "\"a\nb".toList ∧
      Charset.ofName "utf-8".toList = .ok (.plain .utf8) ∧
      Rules.Fits { lines := [Language.doubleQuoteLine], strings := [Language.doubleQuote] }
        (1024 : Int).toNat ∧
      ∃ r h₁ h', Reader.ofOctets [0x22, 0x61, 0x0A, 0x62] "utf-8".toList 1024 1 = .ok r ∧
        GetsTo { lines := [Language.doubleQuoteLine], strings := [Language.doubleQuote] }
          { reader := r } [] { reader := r } ∧
        opening { lines := [Language.doubleQuoteLine], strings := [Language.doubleQuote] }
          { reader := r } =
            .ok (some (.lineOrString Language.doubleQuoteLine Language.doubleQuote)) h₁ ∧
        First Language.doubleQuote.MeetsLineEnd ['a'] ['\n', 'b'] ∧
        step { lines := [Language.doubleQuoteLine], strings := [Language.doubleQuote] }
          { reader := r } =
            .ok (some ⟨"\"a".toList, 1, .line (some Language.doubleQuoteLine)⟩) h' := by
  have htext : (Charset.plain .utf8).Decodes [0x22, 0x61, 0x0A, 0x62] "\"a\nb".toList :=
    Charset.decodes_plain (decodes_of_ascii (by simp))
  have hname : Charset.ofName "utf-8".toList = .ok (.plain .utf8) := rfl
  have hfit : Rules.Fits { lines := [Language.doubleQuoteLine], strings := [Language.doubleQuote] }
      (1024 : Int).toNat := by decide
  refine ⟨htext, hname, hfit, ?_⟩
  obtain ⟨r, hr, hrun⟩ := step_lineOrString htext 1 hname hfit
  obtain ⟨h₁, hopening⟩ := exists_opening_start htext (by decide) hname hfit
    (o := .lineOrString Language.doubleQuoteLine Language.doubleQuote) rfl hr
  obtain ⟨before, after, htext, hat, -, -, hline, -⟩ := hrun .here hopening
  obtain ⟨-, -, -, hpos⟩ := Reader.fields_ofOctets hr
  obtain rfl := hat.before_eq_nil hpos
  obtain rfl : ['a', '\n', 'b'] = after := (List.cons.inj htext).2
  have hfirst : First Language.doubleQuote.MeetsLineEnd ['a'] ['\n', 'b'] := by
    refine ⟨⟨.rune (.inr rfl) .here, rfl⟩, fun u v huv hmeets => ?_⟩
    rcases u with _ | ⟨c, u⟩
    · obtain rfl : ['a', '\n', 'b'] = v := huv
      cases hmeets.2
    · simp
  obtain ⟨c, h', rfl, hstep, -⟩ := hline ['a'] ['\n', 'b'] rfl hfirst fun u v huv hstop => by
    -- The end of the string does not stand in front of the first rune.
    rcases u with _ | ⟨c, u⟩
    · obtain rfl : ['a', '\n', 'b'] = v := huv
      cases hstop.holds.2.2
    · simp
  exact ⟨r, h₁, h', hr, .here, hopening, hfirst, hstep⟩

end Scanner

end SourceNotes
