/-
Comments by themselves.

In each language of the table a comment can be told from its own text. Where it is put on
lines of its own, the same rule wins at its start and it ends where it ended before, so that
the comments of a text, written one below another, are found again.

* **`Rules.SelfContained`** — what the delimiters have to be like for that;
* **`Comment.Alone`** — the comment is found wherever a line begins with it and ends behind
  it; those of a text without carriage returns are (`Segmentation.alone`);
* **`exists_segmentation_join`** — the segments of comments one below another;
* **`Scanner.drain_join`** — a scan of them delivers them, each on its new line.
-/
import SourceNotes.Proofs.Comment.Append
import SourceNotes.Proofs.Comment.Horizon

namespace SourceNotes

open Head Text Charset

/-! ### Rules that tell comments by themselves -/

/-- Whether its delimiters count only at some places of a line. -/
def BlockRule.gated (rule : BlockRule) : Bool := rule.atFirstColumn || rule.atLineStart

/-- What a comment begins with and where it ends depends on the comment alone. -/
structure Rules.SelfContained (rules : Rules) : Prop where
  avoidNewlines : rules.AvoidNewlines
  /-- No look from the start of a block comment goes beyond its end. -/
  horizon_le : ∀ b ∈ rules.blocks, rules.horizon ≤ b.start.length + b.stop.length
  /-- No look inside a block comment goes beyond its end. -/
  nested_le : ∀ b ∈ rules.blocks, b.nested = true → b.start.length ≤ b.stop.length
  /-- Where another comment begins, no block comment does that counts at some places only. -/
  line_apart : ∀ b ∈ rules.blocks, b.gated = true → ∀ r ∈ rules.lines,
    ¬ b.start <+: r.start ∧ ¬ r.start <+: b.start
  block_apart : ∀ b ∈ rules.blocks, b.gated = true → ∀ r ∈ rules.blocks, r ≠ b →
    ¬ b.start <+: r.start ∧ ¬ r.start <+: b.start

/-- No look of a language goes further than its longest delimiter, the start of a block comment
in Ruby. -/
theorem Language.horizon_le : ∀ l ∈ Language.table, l.2.horizon ≤ 6 := by decide

theorem Language.selfContained {name : String} {rules : Rules}
    (h : (name, rules) ∈ Language.table) : rules.SelfContained where
  avoidNewlines := by
    have hlines : ∀ l ∈ table, ∀ r ∈ l.2.lines, '\n' ∉ r.start := by decide
    have hblocks : ∀ l ∈ table, ∀ r ∈ l.2.blocks, '\n' ∉ r.start ∧ '\n' ∉ r.stop := by decide
    have hstrings : ∀ l ∈ table, ∀ r ∈ l.2.strings,
        '\n' ∉ r.start ∧ '\n' ∉ r.stop ∧ '\n' ∉ r.escape.chars := by decide
    exact ⟨hlines _ h, hblocks _ h, hstrings _ h⟩
  horizon_le := by
    have htable : ∀ l ∈ table, ∀ b ∈ l.2.blocks,
        l.2.horizon ≤ b.start.length + b.stop.length := by decide
    exact htable _ h
  nested_le := by
    have htable : ∀ l ∈ table, ∀ b ∈ l.2.blocks, b.nested = true →
        b.start.length ≤ b.stop.length := by decide
    exact htable _ h
  line_apart := by
    have htable : ∀ l ∈ table, ∀ b ∈ l.2.blocks, b.gated = true → ∀ r ∈ l.2.lines,
        ¬ b.start <+: r.start ∧ ¬ r.start <+: b.start := by decide
    exact htable _ h
  block_apart := by
    have htable : ∀ l ∈ table, ∀ b ∈ l.2.blocks, b.gated = true → ∀ r ∈ l.2.blocks, r ≠ b →
        ¬ b.start <+: r.start ∧ ¬ r.start <+: b.start := by decide
    exact htable _ h

variable {rules : Rules} {cut : Bool} {before before' after text s rest rest' : Text} {o : Opening}
  {form : Option Comment.Form} {segments : List Segment}

/-! ### Where a line begins -/

theorem BlockRule.openAfter_of_not_gated {rule : BlockRule} (h : rule.gated = false)
    (before : Text) : rule.openAfter before = true := by
  rw [gated, Bool.or_eq_false_iff] at h
  simp [openAfter, h.1, h.2]

theorem BlockRule.openAfter_of_lastLine (rule : BlockRule) (h : lastLine before = []) :
    rule.openAfter before = true := by
  simp [openAfter, h, allBlank]

/-- Behind two places where a block comment may begin, its delimiters count at the same places. -/
theorem BlockRule.openAfter_append_congr {rule : BlockRule} (h : rule.openAfter before = true)
    (h' : rule.openAfter before' = true) (u : Text) :
    rule.openAfter (before ++ u) = rule.openAfter (before' ++ u) := by
  simp only [openAfter, Bool.and_eq_true, Bool.or_eq_true, Bool.not_eq_true'] at h h'
  unfold openAfter
  rw [lastLine_append, lastLine_append]
  by_cases hu : '\n' ∈ u
  · rw [if_pos hu, if_pos hu]
  · -- On the same line the gate is open for the same reason.
    rw [if_neg hu, if_neg hu]
    congr 1
    · rcases h.1 with hno | hnil
      · simp [hno]
      · rcases h'.1 with hno | hnil'
        · simp [hno]
        · rw [List.isEmpty_iff.1 hnil, List.isEmpty_iff.1 hnil']
    · rcases h.2 with hno | hblank
      · simp [hno]
      · rcases h'.2 with hno | hblank'
        · simp [hno]
        · simp only [allBlank, List.all_append] at hblank hblank' ⊢
          rw [hblank, hblank']

/-- Where a comment begins, the gate is open of every block comment whose start stands there. -/
theorem BlockRule.openAfter_of_startsWith (hself : rules.SelfContained)
    (hwin : rules.winnerAt before after = some o) (hcomment : ∀ rule, o ≠ .string rule)
    {rule : BlockRule} (hmem : rule ∈ rules.blocks) (hstands : startsWith rule.start after = true) :
    rule.openAfter before = true := by
  cases hgated : rule.gated with
  | false => exact openAfter_of_not_gated hgated before
  | true =>
    have hrules := Opening.isOf_of_winnerAt hwin
    have hcomparable := List.prefix_or_prefix_of_prefix (List.isPrefixOf_iff_prefix.1 hstands)
      (List.isPrefixOf_iff_prefix.1 (Rules.startsWith_of_winnerAt hwin))
    -- Nothing but the rule itself begins like it, and the gate of what wins is open.
    cases o with
    | string r => exact absurd rfl (hcomment r)
    | line r =>
      obtain ⟨hno, hno'⟩ := hself.line_apart rule hmem hgated r hrules
      exact absurd hcomparable (not_or.2 ⟨hno, hno'⟩)
    | lineOrString r literal =>
      obtain ⟨hno, hno'⟩ := hself.line_apart rule hmem hgated r hrules.1
      exact absurd hcomparable (not_or.2 ⟨hno, hno'⟩)
    | block r =>
      by_cases hr : r = rule
      · subst hr
        exact openAfter_of_winnerAt hwin
      · obtain ⟨hno, hno'⟩ := hself.block_apart rule hmem hgated r hrules hr
        exact absurd hcomparable (not_or.2 ⟨hno, hno'⟩)

/-- The rule of a comment wins where a line begins, too. -/
theorem winnerAt_of_lastLine (hself : rules.SelfContained)
    (hwin : rules.winnerAt before after = some o) (hcomment : ∀ rule, o ≠ .string rule)
    (hline : lastLine before' = []) : rules.winnerAt before' after = some o := by
  rw [← hwin]
  refine winnerAt_congr (fun _ _ => rfl) (fun r hr => ?_) fun _ _ => rfl
  rw [r.openAfter_of_lastLine hline]
  cases hstands : startsWith r.start after with
  | false => rw [Bool.and_false, Bool.and_false]
  | true => rw [BlockRule.openAfter_of_startsWith hself hwin hcomment hr hstands]

/-! ### Where a comment ends -/

/-- A line comment ends in front of a line end. -/
theorem Opening.Closes.atBreak {rule : Option LineRule}
    (h : o.Closes cut before s rest (some (.line rule))) (hr : '\r' ∉ rest) : AtBreak rest := by
  refine atBreak_of_endsLine hr ?_
  cases h with
  | line h =>
    obtain ⟨a, before', hstop⟩ := h.exists_stop fun _ _ _ _ hd => by
      unfold decideLine at hd
      split at hd <;> cases hd
    unfold decideLine at hstop
    split at hstop
    · next hends => exact hends
    · cases hstop
  | lineNotString h =>
    obtain ⟨a, before', hstop⟩ := h.exists_stop fun _ _ _ _ hd => by
      unfold decideLineOrString at hd
      split at hd
      · cases hd
      · exact Bool.false_ne_true (eq_of_decideString_last hd)
    unfold decideLineOrString at hstop
    split at hstop
    · next hends => exact hends
    · exact absurd hstop decideString_ne_stop

theorem Opening.Closes.alone_line (hself : rules.SelfContained) {rule : Option LineRule}
    (hwin : rules.winnerAt before (o.start ++ (s ++ rest)) = some o)
    (h : o.Closes cut (before ++ o.start) s rest (some (.line rule)))
    (hr : '\r' ∉ o.start ++ (s ++ rest)) (hline : lastLine before' = []) (hbreak : AtBreak rest') :
    rules.winnerAt before' (o.start ++ (s ++ rest')) = some o ∧
      o.Closes false (before' ++ o.start) s rest' (some (.line rule)) := by
  simp only [List.mem_append, not_or] at hr
  obtain ⟨hstart, hs, hrest⟩ := hr
  have hends := h.atBreak hrest
  have hnoString : ∀ rule, o ≠ .string rule := by
    rintro rule rfl
    cases h
  have hnoBlock : ∀ rule, o ≠ .block rule := by
    rintro rule rfl
    cases h
  -- No look goes over the end of a line.
  have hsame {x : Text} (hx : '\r' ∉ x) : rules.LooksSame (x ++ rest) (x ++ rest') :=
    (looksSame_of_atBreak hx hself.avoidNewlines.not_mem_marks hends).trans
      (looksSame_of_atBreak hx hself.avoidNewlines.not_mem_marks hbreak).symm
  constructor
  · have hlooks : rules.LooksSame (o.start ++ (s ++ rest)) (o.start ++ (s ++ rest')) := by
      rw [← List.append_assoc, ← List.append_assoc]
      exact hsame (List.not_mem_append hstart hs)
    exact winnerAt_of_lastLine hself ((hlooks.winnerAt_eq before).symm.trans hwin) hnoString hline
  · refine h.congr (Opening.isOf_of_winnerAt hwin) (fun u v huv => hsame ?_)
      (fun rule ho => absurd ho (hnoBlock rule)) nofun
    rw [huv] at hs
    exact fun hv => hs (List.mem_append_right u hv)

theorem Opening.Closes.alone_block (hself : rules.SelfContained) {rule : Option BlockRule}
    (hwin : rules.winnerAt before (o.start ++ (s ++ rest)) = some o)
    (h : o.Closes cut (before ++ o.start) s rest (some (.block rule)))
    (hline : lastLine before' = []) (rest' : Text) :
    rules.winnerAt before' (o.start ++ (s ++ rest')) = some o ∧
      o.Closes false (before' ++ o.start) s rest' (some (.block rule)) := by
  have hrules := Opening.isOf_of_winnerAt hwin
  cases h with
  | @block rule _ _ h =>
    obtain ⟨s₀, hs₀⟩ := h.exists_stop_block
    constructor
    · have hfar : rules.horizon ≤ (rule.start ++ s).length := by
        have := hself.horizon_le rule hrules
        rw [hs₀, List.length_append, List.length_append]
        omega
      have hlooks := looksSame_of_horizon_le hfar rest rest'
      rw [List.append_assoc, List.append_assoc] at hlooks
      exact winnerAt_of_lastLine hself ((hlooks.winnerAt_eq before).symm.trans hwin) nofun hline
    · refine .block (h.congr (fun depth u v _ hreads => ?_) nofun)
      -- At each place on the way the stop of the comment is still to come.
      obtain ⟨v₀, rfl⟩ := hreads.exists_stop_block
      have hshort {p : Text} (hp : p.length ≤ rule.stop.length) :
          startsWith p (v₀ ++ rule.stop ++ rest) = startsWith p (v₀ ++ rule.stop ++ rest') := by
        have hle : p.length ≤ (v₀ ++ rule.stop).length := by
          rw [List.length_append]
          omega
        rw [startsWith_append_of_length hle, startsWith_append_of_length hle]
      refine decideBlock_congr ?_ (hshort (Nat.le_refl _))
        (fun hnested => hshort (hself.nested_le rule hrules hnested)) depth
      rw [List.append_assoc, List.append_assoc]
      exact BlockRule.openAfter_append_congr (BlockRule.openAfter_of_winnerAt hwin)
        (rule.openAfter_of_lastLine hline) _

/-! ### Comments one below another -/

/-- The comment is found wherever a line begins with it and ends behind it. -/
def Comment.Alone (rules : Rules) (c : Comment) : Prop :=
  ∃ (o : Opening) (s : Text), c.text = o.start ++ s ∧
    ∀ before rest, Text.lastLine before = [] → AtBreak rest →
      rules.winnerAt before (o.start ++ (s ++ rest)) = some o ∧
        o.Closes false (before ++ o.start) s rest (some c.form)

/-- The comments of a text do not depend on what is around them. -/
theorem Segmentation.alone (hself : rules.SelfContained)
    (h : Segmentation rules cut before text segments) (hr : '\r' ∉ text) :
    ∀ c ∈ commentsOf segments, c.Alone rules := by
  induction h with
  | done => exact nofun
  | code _ _ ih => exact ih fun hrest => hr (List.mem_cons_of_mem _ hrest)
  | lost _ _ => exact nofun
  | @closed before s rest o form segments hwin hclose _ ih =>
    have hrest : '\r' ∉ rest := fun h =>
      hr (List.mem_append_right _ (List.mem_append_right _ h))
    cases form with
    | none => exact ih hrest
    | some form =>
      refine List.forall_mem_cons.2 ⟨⟨o, s, rfl, fun before' rest' hline hbreak => ?_⟩, ih hrest⟩
      cases form with
      | line rule => exact hclose.alone_line hself hwin hr hline hbreak
      | block rule => exact hclose.alone_block hself hwin hline rest'

/-- The comments on new lines: the first one on the line `n`, each of the others on the line
below the one in front of it. -/
def Comment.lineUp (n : Nat) (cs : List Comment) : List Comment :=
  cs.mapIdx fun i c =>
    { c with line := ((cs.take i).foldl (fun m d => m + (1 + d.text.count '\n')) n : Nat) }

theorem Comment.lineUp_cons (n : Nat) (c : Comment) (cs : List Comment) :
    lineUp n (c :: cs) = { c with line := n } :: lineUp (n + (1 + c.text.count '\n')) cs := by
  simp only [lineUp, List.mapIdx_cons, List.take_zero, List.foldl_nil, List.take_succ_cons,
    List.foldl_cons]

/-- Comments that stand alone, written one below another, are the comments of that text. -/
theorem exists_segmentation_join (hself : rules.SelfContained) {cs : List Comment}
    (h : ∀ c ∈ cs, c.Alone rules) (hline : lastLine before = []) :
    ∃ segments, Segmentation rules false before (join '\n' (cs.map (·.text))) segments ∧
      commentsOf segments = Comment.lineUp (1 + before.count '\n') cs := by
  induction cs generalizing before with
  | nil => exact ⟨[], .done, rfl⟩
  | cons c cs ih =>
    obtain ⟨⟨o, s, htext, halone⟩, hmore⟩ := List.forall_mem_cons.1 h
    rcases cs with _ | ⟨d, cs⟩
    · obtain ⟨hwin, hclose⟩ := halone before [] hline (.inl rfl)
      refine ⟨[o.segment before s (some c.form)], ?_, ?_⟩
      · have hseg := Segmentation.closed hwin hclose .done
        rw [List.append_nil, ← htext] at hseg
        exact hseg
      · rw [Comment.lineUp_cons, htext]
        rfl
    · -- Behind the comment its line ends, and the next one begins a line.
      have hlast : lastLine (before ++ (o.start ++ s) ++ ['\n']) = [] := by
        rw [lastLine_concat, if_pos rfl]
      obtain ⟨segments, hseg, hcomments⟩ := ih hmore hlast
      obtain ⟨hwin, hclose⟩ := halone before ('\n' :: join '\n' ((d :: cs).map (·.text))) hline
        (.inr rfl)
      refine ⟨o.segment before s (some c.form) :: .code '\n' :: segments, ?_, ?_⟩
      · have hjoin : join '\n' ((c :: d :: cs).map (·.text)) =
            o.start ++ (s ++ '\n' :: join '\n' ((d :: cs).map (·.text))) := by
          rw [← List.append_assoc, ← htext]
          rfl
        rw [hjoin]
        exact .closed hwin hclose (.code (hself.avoidNewlines.winnerAt_newline _ _) hseg)
      · have hcount : 1 + (before ++ (o.start ++ s) ++ ['\n']).count '\n' =
            1 + before.count '\n' + (1 + c.text.count '\n') := by
          rw [List.count_append, List.count_append, List.count_singleton_self, htext]
          omega
        rw [Comment.lineUp_cons, ← hcount, ← hcomments, htext]
        rfl

/-! ### A second scan -/

namespace Scanner

/-- The comments of a text without carriage returns, written one below another, are found again,
with the same texts and the same rules. -/
theorem drain_join {name : String} (hlang : (name, rules) ∈ Language.table) (hr : '\r' ∉ text)
    {octets : Octets} {k : Codec} (htext : k.Decodes octets text) {charsetName : Text}
    {maxPeek : Int} (chunkSize : Int) (hname : Charset.ofName charsetName = .ok (.plain k))
    (hpeek : 6 ≤ maxPeek) :
    ∃ r, Reader.ofOctets octets charsetName maxPeek chunkSize = .ok r ∧
      ∀ {octets' : Octets} {k' : Codec} {charsetName' : Text},
        k'.Decodes octets' (join '\n' ((ofReader rules r).drain.1.map (·.text))) →
        Charset.ofName charsetName' = .ok (.plain k') →
        ∃ r', Reader.ofOctets octets' charsetName' maxPeek chunkSize = .ok r' ∧
          (ofReader rules r').drain.1 = Comment.lineUp 1 (ofReader rules r).drain.1 := by
  have hself := Language.selfContained hlang
  have hfit : rules.Fits maxPeek.toNat := by
    refine Rules.fits_of_horizon_le ?_
    have : rules.horizon ≤ 6 := Language.horizon_le _ hlang
    omega
  obtain ⟨segments, hseg⟩ := exists_segmentation rules false [] text
  obtain ⟨r, hopen, hdrain⟩ := exists_drain_of_decodes chunkSize htext hname hfit hseg
  refine ⟨r, hopen, fun {octets' k' charsetName'} htext' hname' => ?_⟩
  rw [hdrain] at htext' ⊢
  by_cases hchunk : chunkSize ≤ Reader.maxChunk
  · rw [if_pos hchunk] at htext' ⊢
    obtain ⟨segments', hseg', hcomments⟩ :=
      exists_segmentation_join hself (hseg.alone hself hr) lastLine_nil
    obtain ⟨r', hopen', hdrain'⟩ := exists_drain_of_decodes chunkSize htext' hname' hfit hseg'
    exact ⟨r', hopen', by rw [hdrain', if_pos hchunk, hcomments]; rfl⟩
  · obtain ⟨segments', hseg'⟩ := exists_segmentation rules false []
      (join '\n' ((if chunkSize ≤ Reader.maxChunk then commentsOf segments else []).map (·.text)))
    obtain ⟨r', hopen', hdrain'⟩ := exists_drain_of_decodes chunkSize htext' hname' hfit hseg'
    exact ⟨r', hopen', by rw [hdrain', if_neg hchunk, if_neg hchunk]; rfl⟩

/-- A block comment over two lines and a line comment behind it, at first on the second and the
third line, then on the first and the third. -/
theorem drain_join_block_line :
    ("C", Language.slashStyle) ∈ Language.table ∧ '\r' ∉ "\n/*\n*/ //a".toList ∧
      Codec.utf8.Decodes [0x0A, 0x2F, 0x2A, 0x0A, 0x2A, 0x2F, 0x20, 0x2F, 0x2F, 0x61]
        "\n/*\n*/ //a".toList ∧
      Codec.utf8.Decodes [0x2F, 0x2A, 0x0A, 0x2A, 0x2F, 0x0A, 0x2F, 0x2F, 0x61]
        (join '\n' ["/*\n*/".toList, "//a".toList]) ∧
      Charset.ofName "utf-8".toList = .ok (.plain .utf8) ∧ (6 : Int) ≤ 1024 ∧
      ∃ r r', Reader.ofOctets [0x0A, 0x2F, 0x2A, 0x0A, 0x2A, 0x2F, 0x20, 0x2F, 0x2F, 0x61]
          "utf-8".toList 1024 3 = .ok r ∧
        Reader.ofOctets [0x2F, 0x2A, 0x0A, 0x2A, 0x2F, 0x0A, 0x2F, 0x2F, 0x61] "utf-8".toList 1024
          3 = .ok r' ∧
        (ofReader Language.slashStyle r).drain.1 =
          [⟨"/*\n*/".toList, 2, .block (some Language.slashBlock)⟩,
            ⟨"//a".toList, 3, .line (some Language.slashLine)⟩] ∧
        (ofReader Language.slashStyle r').drain.1 =
          [⟨"/*\n*/".toList, 1, .block (some Language.slashBlock)⟩,
            ⟨"//a".toList, 3, .line (some Language.slashLine)⟩] := by
  have hlang : ("C", Language.slashStyle) ∈ Language.table := by decide
  have hr : '\r' ∉ "\n/*\n*/ //a".toList := by decide
  have htext : Codec.utf8.Decodes [0x0A, 0x2F, 0x2A, 0x0A, 0x2A, 0x2F, 0x20, 0x2F, 0x2F, 0x61]
      "\n/*\n*/ //a".toList := decodes_of_ascii (by simp)
  have htext' : Codec.utf8.Decodes [0x2F, 0x2A, 0x0A, 0x2A, 0x2F, 0x0A, 0x2F, 0x2F, 0x61]
      (join '\n' ["/*\n*/".toList, "//a".toList]) := decodes_of_ascii (by simp)
  have hname : Charset.ofName "utf-8".toList = .ok (.plain .utf8) := rfl
  have hfit : Language.slashStyle.Fits (1024 : Int).toNat := by decide
  obtain ⟨r, hopen, hagain⟩ := drain_join hlang hr htext 3 hname (show (6 : Int) ≤ 1024 by decide)
  -- The comments of the first text.
  have hblock : Reads (decideBlock Language.slashBlock) false 0 ['\n', '/', '*'] "\n*/".toList
      " //a".toList () :=
    .more (u := ['\n']) rfl (by decide) (.last rfl (by decide))
  have hline : Reads decideLine false () "\n/*\n*/ //".toList ['a'] [] () :=
    .more (u := ['a']) rfl (by decide) (.stop rfl (by decide))
  have hsecond : Segmentation Language.slashStyle false "\n/*\n*/ ".toList "//a".toList
      [.comment ⟨"//a".toList, 3, .line (some Language.slashLine)⟩] :=
    @Segmentation.closed _ _ "\n/*\n*/ ".toList ['a'] [] (.line Language.slashLine) _ _ rfl
      (.line hline) .done
  have hfirst : Segmentation Language.slashStyle false ['\n'] "/*\n*/ //a".toList
      [.comment ⟨"/*\n*/".toList, 2, .block (some Language.slashBlock)⟩, .code ' ',
        .comment ⟨"//a".toList, 3, .line (some Language.slashLine)⟩] :=
    @Segmentation.closed _ _ ['\n'] "\n*/".toList " //a".toList (.block Language.slashBlock) _ _
      rfl (.block hblock) (.code rfl hsecond)
  obtain ⟨r₁, hopen₁, hdrain⟩ := exists_drain_of_decodes 3 htext hname hfit (.code rfl hfirst)
  obtain rfl : r = r₁ := Except.ok.inj (hopen.symm.trans hopen₁)
  rw [if_pos (by decide)] at hdrain
  rw [hdrain] at hagain
  obtain ⟨r', hopen', hdrain'⟩ := hagain htext' hname
  exact ⟨hlang, hr, htext, htext', hname, by decide, r, r', hopen, hopen', hdrain, hdrain'⟩

end Scanner

end SourceNotes
