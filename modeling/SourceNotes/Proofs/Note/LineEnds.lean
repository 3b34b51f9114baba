/-
Line ends do not matter to comments and notes.

A carriage return at the end of a row is trimmed off with the other blanks, so that the
rows of a block comment hold the same notes with it and without it.

* **`Note.ofComment_withReturns`** — the notes of a comment stay the same;
* **`Finder.drain_withReturns`** — a scan of a text with carriage returns delivers the
  same comments and the same notes.
-/
import SourceNotes.Proofs.Comment.LineEnds
import SourceNotes.Proofs.Note.Rows

namespace SourceNotes

open Text Charset

namespace Note

/-- A blank at the end is trimmed off. -/
theorem trim_concat {s : Text} {c : Char} (hc : isBlank c = true) : trim (s ++ [c]) = trim s := by
  have hend (t : Text) : trimEnd (t ++ [c]) = trimEnd t := by
    rw [trimEnd, trimEnd, dropEndWhile, dropEndWhile, List.reverse_append, List.reverse_singleton,
      List.singleton_append, List.dropWhile_cons_of_pos hc]
  have hblank : List.dropWhile isBlank [c] = [] := List.dropWhile_cons_of_pos hc
  -- If nothing else is left behind the blanks in front, the last one goes with them.
  rw [trim, trim, trimStart, trimStart, List.dropWhile_append]
  cases hs : s.dropWhile isBlank with
  | nil =>
    rw [hblank]
    rfl
  | cons d t => exact hend (d :: t)

/-- The rows of a text with carriage returns are the same when trimmed. -/
theorem trim_pieces_withReturns (s : Text) :
    (pieces '\n' (withReturns s)).map trim = (pieces '\n' s).map trim := by
  have hreturn (p : Text) : trim (p ++ ['\r']) = trim p := trim_concat (by decide)
  -- The first row may have to be put behind more runes, so that it is kept apart.
  suffices h : ∃ p q ps qs, pieces '\n' s = p :: ps ∧ pieces '\n' (withReturns s) = q :: qs ∧
      (q = p ∨ q = p ++ ['\r']) ∧ qs.map trim = ps.map trim by
    obtain ⟨p, q, ps, qs, hp, hq, hfirst, hrest⟩ := h
    have htrim : trim q = trim p := by
      rcases hfirst with rfl | rfl
      · rfl
      · exact hreturn p
    rw [hp, hq, List.map_cons, List.map_cons, htrim, hrest]
  induction s with
  | nil => exact ⟨[], [], [], [], rfl, rfl, .inl rfl, rfl⟩
  | cons c s ih =>
    obtain ⟨p, q, ps, qs, hp, hq, hfirst, hrest⟩ := ih
    by_cases hc : c = '\n'
    · subst hc
      have htrim : trim q = trim p := by
        rcases hfirst with rfl | rfl
        · rfl
        · exact hreturn p
      have hnewline : pieces '\n' ('\n' :: withReturns s) = [] :: q :: qs := by
        rw [pieces_cons_sep, hq]
      refine ⟨[], ['\r'], p :: ps, q :: qs, by rw [pieces_cons_sep, hp], ?_, .inr rfl, ?_⟩
      · rw [withReturns_newline]
        exact pieces_cons_of_ne (by decide) hnewline
      · rw [List.map_cons, List.map_cons, htrim, hrest]
    · refine ⟨c :: p, c :: q, ps, qs, pieces_cons_of_ne hc hp, ?_, ?_, hrest⟩
      · rw [withReturns_cons_of_ne hc]
        exact pieces_cons_of_ne hc hq
      · rcases hfirst with rfl | rfl
        · exact .inl rfl
        · exact .inr rfl

/-- What the rows of a block comment hold depends on the trimmed rows. -/
theorem ofBlockComment_congr {s t : Text} (kinds : List Text) (rule : Option BlockRule)
    (line : Int) (h : (pieces '\n' s).map trim = (pieces '\n' t).map trim) :
    ofBlockComment kinds rule s line = ofBlockComment kinds rule t line := by
  have hrows (s : Text) : ofBlockComment kinds rule s line =
      ((pieces '\n' s).map trim).zipIdx.filterMap fun row =>
        (Match.read kinds false (blockBody rule row.1)).map
          (ofMatch row.1 (line + row.2) line) := by
    rw [List.zipIdx_map, List.filterMap_map]
    rfl
  rw [hrows, hrows, h]

/-- A comment holds the same notes with carriage returns. -/
theorem ofComment_withReturns (kinds : List Text) {c : Comment}
    (hline : ∀ rule, c.form = .line rule → c.withReturns = c) :
    ofComment kinds c.withReturns = ofComment kinds c := by
  cases hform : c.form with
  | line rule => rw [hline rule hform]
  | block rule =>
    have hform' : c.withReturns.form = .block rule := hform
    rw [ofComment, ofComment, hform, hform']
    exact ofBlockComment_congr kinds rule c.line (trim_pieces_withReturns c.text)

end Note

/-- Line comments among the segments have no carriage return to get. -/
theorem Segmentation.line_withReturns {rules : Rules} {cut : Bool} {text : Text}
    {segments : List Segment} (hseg : Segmentation rules cut [] text segments)
    (havoid : rules.AvoidLineEnds) {c : Comment} (hc : c ∈ commentsOf segments)
    {rule : Option LineRule} (hform : c.form = .line rule) : c.withReturns = c := by
  obtain ⟨l, m, hsegs⟩ := exists_append_of_mem_commentsOf hc
  have hn := hseg.newline_not_mem havoid.avoidNewlines.keepsLines hsegs hform
  rw [Comment.withReturns, withReturns_of_not_mem hn]

/-- The scans of a text and of the text with carriage returns. -/
theorem Scanner.exists_drains {rules : Rules} {octets octets' : Octets} {k : Codec}
    {text text' charsetName : Text} {maxPeek : Int} (chunkSize : Int)
    (htext : k.Decodes octets text) (htext' : k.Decodes octets' text')
    (hname : Charset.ofName charsetName = .ok (.plain k)) (hfit : rules.Fits maxPeek.toNat)
    {segments segments' : List Segment} (hseg : Segmentation rules false [] text segments)
    (hseg' : Segmentation rules false [] text' segments') :
    ∃ r r', Reader.ofOctets octets charsetName maxPeek chunkSize = .ok r ∧
      Reader.ofOctets octets' charsetName maxPeek chunkSize = .ok r' ∧
      ((ofReader rules r).drain.1 = commentsOf segments ∧
          (ofReader rules r').drain.1 = commentsOf segments' ∨
        (ofReader rules r).drain.1 = [] ∧ (ofReader rules r').drain.1 = []) := by
  obtain ⟨r, hr, hdrain⟩ := exists_drain_of_decodes chunkSize htext hname hfit hseg
  obtain ⟨r', hr', hdrain'⟩ := exists_drain_of_decodes chunkSize htext' hname hfit hseg'
  by_cases hchunk : chunkSize ≤ Reader.maxChunk
  · rw [if_pos hchunk] at hdrain hdrain'
    exact ⟨r, r', hr, hr', .inl ⟨hdrain, hdrain'⟩⟩
  · rw [if_neg hchunk] at hdrain hdrain'
    exact ⟨r, r', hr, hr', .inr ⟨hdrain, hdrain'⟩⟩

namespace Finder

/-- A text with carriage returns has the same comments and the same notes. -/
theorem drain_withReturns {rules : Rules} (havoid : rules.AvoidLineEnds) (kinds : List Text)
    {text : Text} (hr : '\r' ∉ text) {octets octets' : Octets} {k : Codec}
    (htext : k.Decodes octets text) (htext' : k.Decodes octets' (withReturns text))
    {charsetName : Text} {maxPeek : Int} (chunkSize : Int)
    (hname : Charset.ofName charsetName = .ok (.plain k)) (hfit : rules.Fits maxPeek.toNat) :
    ∃ r r', Reader.ofOctets octets charsetName maxPeek chunkSize = .ok r ∧
      Reader.ofOctets octets' charsetName maxPeek chunkSize = .ok r' ∧
      (Scanner.ofReader rules r').drain.1 =
        (Scanner.ofReader rules r).drain.1.map Comment.withReturns ∧
      (∀ c ∈ (Scanner.ofReader rules r).drain.1, ∀ rule, c.form = .line rule →
        c.withReturns = c) ∧
      (ofScanner kinds (.ofReader rules r')).drain.1 =
        (ofScanner kinds (.ofReader rules r)).drain.1 := by
  -- Both scans are their segmentations, and these have the same comments.
  obtain ⟨segments, hseg⟩ := exists_segmentation rules false [] text
  obtain ⟨segments', hseg', hcomments⟩ := hseg.withReturns havoid hr
  obtain ⟨r, r', hopen, hopen', ⟨hdrain, hdrain'⟩ | ⟨hdrain, hdrain'⟩⟩ :=
    Scanner.exists_drains chunkSize htext htext' hname hfit hseg hseg'
  · have hline : ∀ c ∈ commentsOf segments, ∀ rule, c.form = .line rule → c.withReturns = c :=
      fun c hc rule hform => hseg.line_withReturns havoid hc hform
    rw [hcomments] at hdrain'
    refine ⟨r, r', hopen, hopen', by rw [hdrain, hdrain'], by rwa [hdrain], ?_⟩
    rw [drain_ofScanner, drain_ofScanner, hdrain, hdrain', List.flatMap_map, List.flatMap_def,
      List.flatMap_def]
    exact congrArg List.flatten
      (List.map_congr_left fun c hc => Note.ofComment_withReturns _ (hline c hc))
  · refine ⟨r, r', hopen, hopen', by rw [hdrain, hdrain']; rfl, ?_, ?_⟩
    · rw [hdrain]
      exact fun c hc => absurd hc List.not_mem_nil
    · rw [drain_ofScanner, drain_ofScanner, hdrain, hdrain']

/-- A line comment that is a note, with a newline behind it and with a carriage return and a
newline. -/
theorem drain_withReturns_line :
    Language.slashStyle.AvoidLineEnds ∧ '\r' ∉ "//TODO\n".toList ∧
      Codec.utf8.Decodes [0x2F, 0x2F, 0x54, 0x4F, 0x44, 0x4F, 0x0A] "//TODO\n".toList ∧
      Codec.utf8.Decodes [0x2F, 0x2F, 0x54, 0x4F, 0x44, 0x4F, 0x0D, 0x0A]
        (withReturns "//TODO\n".toList) ∧
      Charset.ofName "utf-8".toList = .ok (.plain .utf8) ∧
      Language.slashStyle.Fits (1024 : Int).toNat ∧
      ∃ r r', Reader.ofOctets [0x2F, 0x2F, 0x54, 0x4F, 0x44, 0x4F, 0x0A] "utf-8".toList 1024 4096 =
          .ok r ∧
        Reader.ofOctets [0x2F, 0x2F, 0x54, 0x4F, 0x44, 0x4F, 0x0D, 0x0A] "utf-8".toList 1024 4096 =
          .ok r' ∧
        (ofScanner ["TODO".toList] (.ofReader Language.slashStyle r')).drain.1 =
          (ofScanner ["TODO".toList] (.ofReader Language.slashStyle r)).drain.1 := by
  have havoid : Language.slashStyle.AvoidLineEnds := ⟨by decide, by decide, by decide⟩
  have hr : '\r' ∉ "//TODO\n".toList := by decide
  have htext : Codec.utf8.Decodes [0x2F, 0x2F, 0x54, 0x4F, 0x44, 0x4F, 0x0A] "//TODO\n".toList :=
    decodes_of_ascii (by simp)
  have htext' : Codec.utf8.Decodes [0x2F, 0x2F, 0x54, 0x4F, 0x44, 0x4F, 0x0D, 0x0A]
      (withReturns "//TODO\n".toList) := decodes_of_ascii (by simp)
  have hname : Charset.ofName "utf-8".toList = .ok (.plain .utf8) := rfl
  have hfit : Language.slashStyle.Fits (1024 : Int).toNat := by decide
  obtain ⟨r, r', hopen, hopen', -, -, hnotes⟩ :=
    drain_withReturns havoid ["TODO".toList] hr htext htext' 4096 hname hfit
  exact ⟨havoid, hr, htext, htext', hname, hfit, r, r', hopen, hopen', hnotes⟩

end Finder

end SourceNotes
