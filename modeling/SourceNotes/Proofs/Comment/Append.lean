/-
A text behind another one.

If a text ends with a line and nothing in it is left open, a scan comes to its end like a scan
comes to the start of a file: in the first column, with nothing begun and no look having gone
over the seam. So the comments of a text that is put behind it are found as if it stood alone,
only further down.

* **`StopsInCode`** — a scan stops with no string and no comment open; it does so just when
  no part of the text is lost (`stopsInCode_iff`);
* **`Segmentation.append`** — the segments of two texts one after another;
* **`Segmentation.behind`** — the segments of a text that stands behind whole lines;
* **`Scanner.drain_append`** — the comments of two texts one after another.
-/
import SourceNotes.Proofs.Comment.Lookahead
import SourceNotes.Proofs.Comment.LineEnds
import SourceNotes.Proofs.Comment.Scan

namespace SourceNotes

open Head Text Charset

/-! ### The last line of two texts -/

namespace Text

theorem lastLine_append (s t : Text) :
    lastLine (s ++ t) = if '\n' ∈ t then lastLine t else lastLine s ++ t := by
  induction t using concatInduction with
  | nil => simp
  | concat t c ih =>
    rw [← List.append_assoc, lastLine_concat, lastLine_concat, ih]
    by_cases hc : c = '\n'
    · simp [hc]
    · by_cases ht : '\n' ∈ t
      · simp [hc, ht]
      · simp [hc, ht, Ne.symm hc]

theorem lastLine_of_not_mem {s : Text} (h : '\n' ∉ s) : lastLine s = s := by
  have happend := lastLine_append [] s
  rwa [if_neg h, lastLine_nil, List.nil_append] at happend

/-- Behind whole lines the last line is the same as at the start of a text. -/
theorem lastLine_append_of_nil {s : Text} (hs : lastLine s = []) (t : Text) :
    lastLine (s ++ t) = lastLine t := by
  rw [lastLine_append]
  split
  · rfl
  · next ht => rw [hs, List.nil_append, lastLine_of_not_mem ht]

theorem lastLine_nil_of_append {s t : Text} (h : lastLine (s ++ t) = []) : lastLine t = [] := by
  rw [lastLine_append] at h
  split at h
  · exact h
  · obtain rfl := (List.append_eq_nil_iff.1 h).2
    rfl

theorem newline_mem_of_lastLine {s : Text} (h : lastLine s = []) (hs : s ≠ []) : '\n' ∈ s := by
  refine Decidable.byContradiction fun hn => hs ?_
  rw [← lastLine_of_not_mem hn, h]

end Text

variable {rules : Rules} {cut : Bool} {before text text' s rest : Text} {o : Opening}
  {form : Option Comment.Form} {segments segments' : List Segment} {σ : Source} {h : Head}

/-- What has been opened and has come to its end does not end with a newline. -/
theorem Opening.Closes.lastLine_ne_nil (havoid : rules.AvoidNewlines) (hrules : o.IsOf rules)
    (hstart : o.start ≠ []) (h : o.Closes cut before s rest form) :
    lastLine (o.start ++ s) ≠ [] := by
  have hends {p : Text} (hp : p ≠ []) (hn : '\n' ∉ p) (hlast : ∃ s₀, s = s₀ ++ p) :
      lastLine (o.start ++ s) ≠ [] := by
    obtain ⟨s₀, rfl⟩ := hlast
    rw [← List.append_assoc, lastLine_append, if_neg hn]
    exact List.append_ne_nil_of_right_ne_nil _ hp
  have hline (hn : '\n' ∉ o.start ++ s) : lastLine (o.start ++ s) ≠ [] := by
    rw [lastLine_of_not_mem hn]
    exact List.append_ne_nil_of_left_ne_nil hstart _
  cases h with
  | line h => exact hline (Opening.Closes.newline_not_mem havoid.keepsLines hrules (.line h))
  | @block rule _ _ h =>
    exact hends rule.stop_ne_nil (havoid.blocks _ hrules).2 h.exists_stop_block
  | @string rule _ _ h =>
    exact hends rule.stop_ne_nil (havoid.strings _ hrules).2.1 h.exists_stop_string
  | lineNotString h =>
    exact hline (Opening.Closes.newline_not_mem havoid.keepsLines hrules (.lineNotString h))
  | @stringNotLine _ literal _ _ h =>
    exact hends literal.stop_ne_nil (havoid.strings _ hrules.2).2.1 h.exists_stop_stringNotLine

/-! ### The segments of two texts -/

/-- The segments of two texts one after another, if the first one ends with a line and nothing
in it is left open. -/
theorem Segmentation.append (havoid : rules.AvoidNewlines)
    (h : Segmentation rules false before text segments) (hend : lastLine text = [])
    (hclosed : ∀ s, .lost s ∉ segments)
    (h' : Segmentation rules cut (before ++ text) text' segments') :
    Segmentation rules cut before (text ++ text') (segments ++ segments') := by
  -- Up to the seam there is always a newline to come, which no look goes over.
  have hsame {x : Text} (hx : '\n' ∈ x) : rules.LooksSame (x ++ text') x :=
    looksSame_of_newline hx havoid.not_mem_marks text'
  induction h with
  | done =>
    rw [List.append_nil] at h'
    exact h'
  | @code before rest c segments hwin hnext ih =>
    have hnewline : '\n' ∈ c :: rest := newline_mem_of_lastLine hend (List.cons_ne_nil _ _)
    have hrest : lastLine rest = [] := lastLine_nil_of_append (s := [c]) hend
    refine .code ?_ (ih hrest (fun s hs => hclosed s (List.mem_cons_of_mem _ hs)) ?_)
    · exact ((hsame hnewline).winnerAt_eq before).trans hwin
    · rwa [List.append_assoc]
  | @closed before s rest o form segments hwin hclose hnext ih =>
    have hrules := Opening.isOf_of_winnerAt hwin
    have hstart := Opening.start_ne_nil o
    have hnewline : '\n' ∈ o.start ++ (s ++ rest) :=
      newline_mem_of_lastLine hend (List.append_ne_nil_of_left_ne_nil hstart _)
    -- The newline at the end is behind the segment.
    have hbehind : '\n' ∈ rest := by
      refine Decidable.byContradiction fun hn => ?_
      rw [← List.append_assoc, lastLine_append, if_neg hn] at hend
      exact hclose.lastLine_ne_nil havoid hrules hstart (List.append_eq_nil_iff.1 hend).1
    have hrest : lastLine rest = [] := by
      rw [← List.append_assoc] at hend
      exact lastLine_nil_of_append hend
    have hclose' : o.Closes cut (before ++ o.start) s (rest ++ text') form := by
      refine hclose.congr hrules (fun u v _ => ?_) (fun _ _ _ => rfl) fun _ _ => ?_
      · rw [← List.append_assoc]
        exact (hsame (List.mem_append_right v hbehind)).symm
      · exact List.append_ne_nil_of_left_ne_nil (List.ne_nil_of_mem hbehind) _
    have hnext' := ih hrest (fun s hs => hclosed s (List.mem_cons_of_mem _ hs))
      (by rwa [List.append_assoc, List.append_assoc])
    rw [List.append_assoc, List.append_assoc]
    refine .closed ?_ hclose' hnext'
    rw [← List.append_assoc, ← List.append_assoc, List.append_assoc o.start]
    exact ((hsame hnewline).winnerAt_eq before).trans hwin
  | lost hwin hopen => exact absurd (List.mem_singleton_self _) (hclosed _)

/-- The comment, `n` lines further down. -/
def Comment.down (n : Nat) (c : Comment) : Comment := { c with line := c.line + n }

def Segment.down (n : Nat) : Segment → Segment
  | .comment c => .comment (c.down n)
  | segment => segment

theorem commentsOf_append (segments segments' : List Segment) :
    commentsOf (segments ++ segments') = commentsOf segments ++ commentsOf segments' :=
  List.filterMap_append

theorem commentsOf_map_down (n : Nat) (segments : List Segment) :
    commentsOf (segments.map (Segment.down n)) = (commentsOf segments).map (Comment.down n) := by
  rw [commentsOf, commentsOf, List.filterMap_map, List.map_filterMap]
  congr 1
  funext segment
  cases segment <;> rfl

theorem Opening.segment_append (p before : Text) (o : Opening) (s : Text)
    (form : Option Comment.Form) :
    o.segment (p ++ before) s form = (o.segment before s form).down (p.count '\n') := by
  cases form with
  | none => rfl
  | some form =>
    have hline : ((1 + (p ++ before).count '\n' : Nat) : Int) =
        (1 + before.count '\n' : Nat) + (p.count '\n' : Nat) := by
      rw [List.count_append]
      omega
    simp only [Opening.segment, Segment.down, Comment.down, hline]

theorem BlockRule.openAfter_append (rule : BlockRule) {p : Text} (hp : lastLine p = [])
    (before : Text) : rule.openAfter (p ++ before) = rule.openAfter before := by
  rw [openAfter, openAfter, lastLine_append_of_nil hp]

/-- An opening behind whole lines goes on as it does without them. -/
theorem Opening.closes_behind {p : Text} (hp : lastLine p = []) (hrules : o.IsOf rules) :
    o.Closes cut (p ++ before) s rest form ↔ o.Closes cut before s rest form := by
  have hgate (rule : BlockRule) (u : Text) :
      rule.openAfter (p ++ before ++ u) = rule.openAfter (before ++ u) := by
    rw [List.append_assoc, rule.openAfter_append hp]
  constructor
  · intro h
    exact h.congr hrules (fun _ _ _ => .refl rules _) (fun rule _ u => hgate rule u) id
  · intro h
    exact h.congr hrules (fun _ _ _ => .refl rules _) (fun rule _ u => (hgate rule u).symm) id

/-- A text that stands behind whole lines has the same segments, further down. -/
theorem Segmentation.behind {p : Text} (hp : lastLine p = [])
    (h : Segmentation rules cut before text segments) :
    Segmentation rules cut (p ++ before) text (segments.map (Segment.down (p.count '\n'))) := by
  have hwins (before after : Text) :
      rules.winnerAt (p ++ before) after = rules.winnerAt before after :=
    winnerAt_congr (fun _ _ => rfl) (fun r _ => by rw [r.openAfter_append hp]) fun _ _ => rfl
  induction h with
  | done => exact .done
  | @code before rest c segments hwin hnext ih =>
    rw [← List.append_assoc] at ih
    exact .code ((hwins before _).trans hwin) ih
  | @closed before s rest o form segments hwin hclose hnext ih =>
    rw [← List.append_assoc] at ih
    rw [List.map_cons, ← o.segment_append]
    refine .closed ((hwins before _).trans hwin) ?_ ih
    rw [List.append_assoc]
    exact (Opening.closes_behind hp (Opening.isOf_of_winnerAt hwin)).2 hclose
  | @lost before s o hwin hopen =>
    refine .lost ((hwins before _).trans hwin) fun s' rest form hs hclose => ?_
    rw [List.append_assoc] at hclose
    exact hopen s' rest form hs
      ((Opening.closes_behind hp (Opening.isOf_of_winnerAt hwin)).1 hclose)

/-! ### Where a scan stops -/

/-- From `h` on, a scan meets the end of the text while it looks for what begins next. -/
inductive StopsInCode (rules : Rules) : Head → Prop
  | here {h h' : Head}
      (hcode : run (codeStep rules) (peeks_codeStep rules) () [] h = .error .endOfText h') :
      StopsInCode rules h
  | behind {h h₁ h₂ : Head} {taken : Text} {o : Opening} {line : Nat} {c : Option Comment}
      (hcode : run (codeStep rules) (peeks_codeStep rules) () [] h = .ok (taken, o, line) h₁)
      (hbody : o.body line h₁ = .ok c h₂) (hnext : StopsInCode rules h₂) : StopsInCode rules h

theorem stopsInCode_of_prepend {h' : Head} {u : Text}
    (hrun : run (codeStep rules) (peeks_codeStep rules) () [] h =
      prepend u (run (codeStep rules) (peeks_codeStep rules) () [] h')) :
    StopsInCode rules h ↔ StopsInCode rules h' := by
  cases hrun' : run (codeStep rules) (peeks_codeStep rules) () [] h' with
  | error e h₁ =>
    rw [hrun'] at hrun
    constructor
    · rintro (hcode | ⟨hcode, -, -⟩)
      · rw [hrun] at hcode
        cases hcode
        exact .here hrun'
      · rw [hrun] at hcode
        cases hcode
    · rintro (hcode | ⟨hcode, -, -⟩)
      · rw [hrun'] at hcode
        cases hcode
        exact .here hrun
      · rw [hrun'] at hcode
        cases hcode
  | ok out h₁ =>
    obtain ⟨t, o, line⟩ := out
    rw [hrun'] at hrun
    constructor
    · rintro (hcode | ⟨hcode, hbody, hnext⟩)
      · rw [hrun] at hcode
        cases hcode
      · rw [hrun] at hcode
        cases hcode
        exact .behind hrun' hbody hnext
    · rintro (hcode | ⟨hcode, hbody, hnext⟩)
      · rw [hrun'] at hcode
        cases hcode
      · rw [hrun'] at hcode
        cases hcode
        exact .behind hrun hbody hnext

/-- A scan of a decodable text stops in code just when no part of the text is lost. -/
theorem stopsInCode_iff (hserves : σ.Serves rules) (hable : σ.able) (hfault : σ.fault = none)
    (hseg : Segmentation rules σ.cut before text segments) (hat : h.At σ before text) :
    StopsInCode rules h ↔ ∀ s, .lost s ∉ segments := by
  induction hseg generalizing h with
  | done =>
    obtain ⟨e, h', hcode, hends⟩ := fails_run_code hserves hat
    have he := hends.ends hable
    rw [Source.Ends, hfault] at he
    subst he
    exact ⟨fun _ _ => List.not_mem_nil, fun _ => .here hcode⟩
  | @code before rest c segments hwin hnext ih =>
    rcases exists_run_code_of_none hserves hwin hat with ⟨h', hat', hrun⟩ | ⟨-, hunable⟩
    · rw [stopsInCode_of_prepend hrun, ih hat']
      simp
    · exact absurd hable hunable
  | @closed before s rest o form segments hwin hclose hnext ih =>
    rcases reaches_run_code hserves hwin hat with ⟨h₁, hcode, hat₁⟩ | ⟨-, hunable⟩
    · rcases Opening.reaches_body hserves (Opening.isOf_of_winnerAt hwin) hclose
        (1 + before.count '\n') hat₁ with ⟨h₂, hbody, hat₂⟩ | ⟨-, hunable⟩
      · rw [List.append_assoc] at hat₂
        have hnotLost (s' : Text) : Segment.lost s' ≠ o.segment before s form := by
          cases form <;> simp [Opening.segment]
        have hiff : StopsInCode rules h ↔ StopsInCode rules h₂ := by
          constructor
          · rintro (hcode' | ⟨hcode', hbody', hnext'⟩)
            · rw [hcode] at hcode'
              cases hcode'
            · rw [hcode] at hcode'
              cases hcode'
              rw [hbody] at hbody'
              cases hbody'
              exact hnext'
          · exact .behind hcode hbody
        rw [hiff, ih hat₂]
        simp [hnotLost]
      · exact absurd hable hunable
    · exact absurd hable hunable
  | @lost before s o hwin hopen =>
    refine ⟨fun hstops => ?_, fun hclosed => absurd (List.mem_singleton_self _) (hclosed _)⟩
    -- Behind the start the scan stops inside what has no end.
    rcases reaches_run_code hserves hwin hat with ⟨h₁, hcode, hat₁⟩ | ⟨-, hunable⟩
    · obtain ⟨e, h', hfail, -⟩ := Opening.fails_body hserves (Opening.isOf_of_winnerAt hwin) hopen
        (1 + before.count '\n') hat₁
      rcases hstops with hcode' | ⟨hcode', hbody, -⟩
      · rw [hcode] at hcode'
        cases hcode'
      · rw [hcode] at hcode'
        cases hcode'
        rw [hfail] at hbody
        cases hbody
    · exact absurd hable hunable

/-! ### Two scans -/

namespace Scanner

theorem stopsInCode_ofReader {octets : Octets} {k : Codec} {charsetName : Text}
    {maxPeek chunkSize : Int} (htext : k.Decodes octets text)
    (hname : Charset.ofName charsetName = .ok (.plain k)) (hfit : rules.Fits maxPeek.toNat)
    (hchunk : chunkSize ≤ Reader.maxChunk) (hseg : Segmentation rules false [] text segments)
    {r : Reader} (hr : Reader.ofOctets octets charsetName maxPeek chunkSize = .ok r) :
    StopsInCode rules (ofReader rules r).head ↔ ∀ s, .lost s ∉ segments := by
  obtain ⟨r', hr', hgo, -⟩ := goesOn_ofReader rules octets chunkSize hname hfit.one_le
  obtain rfl : r = r' := Except.ok.inj (hr.symm.trans hr')
  obtain ⟨rfl, hfault⟩ := htext
  have hserves : (Source.ofOctets k octets charsetName maxPeek chunkSize True).Serves rules :=
    fun n hn _ => hfit n hn
  refine stopsInCode_iff hserves trivial hfault ?_ (hgo True fun _ => hchunk).at_head
  rwa [Source.cut, Source.ofOctets, hfault]

/-- The comments of a text that ends with a line and leaves nothing open, and of another one
behind it, are those of the first and those of the second, further down by the lines of the
first. -/
theorem drain_append (havoid : rules.AvoidNewlines) (hend : text = [] ∨ text.getLast? = some '\n')
    {octets octets' : Octets} {k : Codec} (htext : k.Decodes octets text)
    (htext' : k.Decodes octets' text') {charsetName : Text} {maxPeek : Int} (chunkSize : Int)
    (hname : Charset.ofName charsetName = .ok (.plain k)) (hfit : rules.Fits maxPeek.toNat) :
    k.Decodes (octets ++ octets') (text ++ text') ∧
      ∃ r r' both, Reader.ofOctets octets charsetName maxPeek chunkSize = .ok r ∧
        Reader.ofOctets octets' charsetName maxPeek chunkSize = .ok r' ∧
        Reader.ofOctets (octets ++ octets') charsetName maxPeek chunkSize = .ok both ∧
        (StopsInCode rules (ofReader rules r).head →
          (ofReader rules both).drain.1 = (ofReader rules r).drain.1 ++
            (ofReader rules r').drain.1.map (Comment.down (text.count '\n'))) := by
  have hboth := htext.append htext'
  obtain ⟨segments, hseg⟩ := exists_segmentation rules false [] text
  obtain ⟨segments', hseg'⟩ := exists_segmentation rules false [] text'
  obtain ⟨segments'', hseg''⟩ := exists_segmentation rules false [] (text ++ text')
  obtain ⟨r, hr, hdrain⟩ := exists_drain_of_decodes chunkSize htext hname hfit hseg
  obtain ⟨r', hr', hdrain'⟩ := exists_drain_of_decodes chunkSize htext' hname hfit hseg'
  obtain ⟨both, hopen, hdrain''⟩ := exists_drain_of_decodes chunkSize hboth hname hfit hseg''
  refine ⟨hboth, r, r', both, hr, hr', hopen, fun hstops => ?_⟩
  rw [hdrain, hdrain', hdrain'']
  by_cases hchunk : chunkSize ≤ Reader.maxChunk
  · rw [if_pos hchunk, if_pos hchunk, if_pos hchunk, ← commentsOf_map_down, ← commentsOf_append]
    have hlast : lastLine text = [] := by
      rcases hend with rfl | hend
      · rfl
      · obtain ⟨s, rfl⟩ := List.getLast?_eq_some_iff.1 hend
        rw [lastLine_concat, if_pos rfl]
    have hclosed := (stopsInCode_ofReader htext hname hfit hchunk hseg hr).1 hstops
    have hbehind := hseg'.behind hlast
    rw [List.append_nil] at hbehind
    rw [hseg''.unique (hseg.append havoid hlast hclosed hbehind)]
  · rw [if_neg hchunk, if_neg hchunk, if_neg hchunk]
    rfl

/-- A block comment on a line, and a line comment behind it that is found on the second line. -/
theorem drain_append_block_line :
    Language.slashStyle.AvoidNewlines ∧ "/**/\n".toList.getLast? = some '\n' ∧
      Codec.utf8.Decodes [0x2F, 0x2A, 0x2A, 0x2F, 0x0A] "/**/\n".toList ∧
      Codec.utf8.Decodes [0x2F, 0x2F, 0x62] "//b".toList ∧
      Charset.ofName "utf-8".toList = .ok (.plain .utf8) ∧
      Language.slashStyle.Fits (1024 : Int).toNat ∧
      ∃ r both, Reader.ofOctets [0x2F, 0x2A, 0x2A, 0x2F, 0x0A] "utf-8".toList 1024 2 = .ok r ∧
        Reader.ofOctets ([0x2F, 0x2A, 0x2A, 0x2F, 0x0A] ++ [0x2F, 0x2F, 0x62]) "utf-8".toList 1024
          2 = .ok both ∧
        StopsInCode Language.slashStyle (ofReader Language.slashStyle r).head ∧
        (ofReader Language.slashStyle both).drain.1 =
          [⟨"/**/".toList, 1, .block (some Language.slashBlock)⟩,
            ⟨"//b".toList, 2, .line (some Language.slashLine)⟩] := by
  have havoid : Language.slashStyle.AvoidNewlines := ⟨by decide, by decide, by decide⟩
  have hend : "/**/\n".toList.getLast? = some '\n' := rfl
  have htext : Codec.utf8.Decodes [0x2F, 0x2A, 0x2A, 0x2F, 0x0A] "/**/\n".toList :=
    decodes_of_ascii (by simp)
  have htext' : Codec.utf8.Decodes [0x2F, 0x2F, 0x62] "//b".toList := decodes_of_ascii (by simp)
  have hname : Charset.ofName "utf-8".toList = .ok (.plain .utf8) := rfl
  have hfit : Language.slashStyle.Fits (1024 : Int).toNat := by decide
  have hchunk : (2 : Int) ≤ Reader.maxChunk := by decide
  obtain ⟨-, r, r', both, hr, hr', hboth, hdrains⟩ :=
    drain_append havoid (.inr hend) htext htext' 2 hname hfit
  -- The two texts by themselves.
  have hblock : Reads (decideBlock Language.slashBlock) false 0 ['/', '*'] ['*', '/'] ['\n'] () :=
    .last rfl (by decide)
  have hseg : Segmentation Language.slashStyle false [] "/**/\n".toList
      [.comment ⟨"/**/".toList, 1, .block (some Language.slashBlock)⟩, .code '\n'] :=
    @Segmentation.closed _ _ [] "*/".toList "\n".toList (.block Language.slashBlock) _ _ rfl
      (.block hblock) (.code rfl .done)
  have hline : Reads decideLine false () ['/', '/'] ['b'] [] () :=
    .more (u := ['b']) rfl (by decide) (.stop rfl (by decide))
  have hseg' : Segmentation Language.slashStyle false [] "//b".toList
      [.comment ⟨"//b".toList, 1, .line (some Language.slashLine)⟩] :=
    @Segmentation.closed _ _ [] ['b'] [] (.line Language.slashLine) _ _ rfl (.line hline) .done
  have hstops := (stopsInCode_ofReader htext hname hfit hchunk hseg hr).2 (by simp)
  obtain ⟨r₁, hr₁, hdrain⟩ := exists_drain_of_decodes 2 htext hname hfit hseg
  obtain rfl : r = r₁ := Except.ok.inj (hr.symm.trans hr₁)
  obtain ⟨r₂, hr₂, hdrain'⟩ := exists_drain_of_decodes 2 htext' hname hfit hseg'
  obtain rfl : r' = r₂ := Except.ok.inj (hr'.symm.trans hr₂)
  refine ⟨havoid, hend, htext, htext', hname, hfit, r, both, hr, hboth, hstops, ?_⟩
  rw [hdrains hstops, hdrain, hdrain', if_pos hchunk, if_pos hchunk]
  rfl

end Scanner

end SourceNotes
