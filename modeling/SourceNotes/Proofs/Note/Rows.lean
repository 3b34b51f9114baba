/-
The rows that notes stand on.

A note is one row of its comment without the blanks around it. A comment begins where
its start stands in the text, so that a row of a comment is the part of a line of the
text that lies in the comment.

* **`Note.IsRow`** — a note is a certain row of a certain comment in the text;
* **`Finder.drain_eq_next`** — draining delivers what going on step by step does;
* **`Finder.drain_rows`** — every note that is delivered is a row of a comment among the
  segments of the text, and notes are delivered in the order of their lines.
-/
import SourceNotes.Proofs.Comment.Lines
import SourceNotes.Proofs.Comment.Scan
import SourceNotes.Proofs.Text.Pieces
import SourceNotes.Note.Finder

namespace SourceNotes

open Text Charset

namespace Note

/-- A note is the row `i`, counted from 0, of the comment `c`, which stands in the text between
`before` and `after`. The row is a part of the line of the text with the number that the note
has. -/
structure IsRow (text before : Text) (c : Comment) (after : Text) (i : Nat) (t : Note) :
    Prop where
  text_eq : text = before ++ (c.text ++ after)
  start_prefix : ∃ start, c.form.start? = some start ∧ start <+: c.text
  commentLine_eq : t.commentLine = (1 + before.count '\n' : Nat)
  line_eq : t.line = t.commentLine + i
  line_bounds : t.commentLine ≤ t.line ∧ t.line ≤ (pieces '\n' text).length
  newline_not_mem : '\n' ∉ t.text
  row : ∃ part, (pieces '\n' c.text)[i]? = some part ∧ t.text = trim part ∧
    (pieces '\n' text)[(t.line - 1).toNat]? =
      some ((if i = 0 then lastPiece '\n' before else []) ++ part ++
        if i = c.text.count '\n' then firstPiece '\n' after else [])

/-! ### The notes of one comment -/

/-- Trimming adds nothing. -/
theorem mem_of_mem_trim {s : Text} {d : Char} (h : d ∈ trim s) : d ∈ s := by
  rw [trim, trimEnd, dropEndWhile, List.mem_reverse] at h
  have hstart := List.mem_reverse.1 ((List.dropWhile_sublist _).mem h)
  exact (List.dropWhile_sublist _).mem hstart

variable {kinds : List Text} {c : Comment} {t : Note}

/-- A note in a comment is the trimmed text of one of its rows. -/
theorem row_of_mem_ofComment (hmem : t ∈ ofComment kinds c)
    (hline : ∀ rule, c.form = .line rule → '\n' ∉ c.text) :
    ∃ (i : Nat) (part : Text), (pieces '\n' c.text)[i]? = some part ∧ t.text = trim part ∧
      t.line = c.line + i ∧ t.commentLine = c.line := by
  unfold ofComment at hmem
  cases hform : c.form with
  | line rule =>
    -- The comment is its only row.
    rw [hform] at hmem
    obtain ⟨m, -, rfl⟩ := Option.map_eq_some_iff.1 (Option.mem_toList.1 hmem)
    refine ⟨0, c.text, ?_, rfl, (Int.add_zero _).symm, rfl⟩
    rw [pieces_of_not_mem (hline rule hform)]
    rfl
  | block rule =>
    rw [hform] at hmem
    obtain ⟨⟨part, i⟩, hrow, ht⟩ := List.mem_filterMap.1 hmem
    obtain ⟨m, -, rfl⟩ := Option.map_eq_some_iff.1 ht
    exact ⟨i, part, List.mem_zipIdx_iff_getElem?.1 hrow, rfl, rfl, rfl⟩

/-- The notes of a comment come in the order of their rows, no two of them on one row. -/
theorem pairwise_ofComment (kinds : List Text) (c : Comment) :
    (ofComment kinds c).Pairwise fun t u => t.line < u.line := by
  unfold ofComment
  split
  · next rule _ =>
    cases ofLineComment kinds rule c.text c.line with
    | none => exact .nil
    | some t => exact List.pairwise_singleton _ t
  · refine List.pairwise_filterMap.2 ?_
    have hrows : (pieces '\n' c.text).zipIdx.Pairwise fun a b => a.2 < b.2 := by
      refine List.pairwise_map.1 ?_
      rw [List.zipIdx_map_snd]
      exact List.pairwise_lt_range'
    refine hrows.imp fun {a b} hlt t ht u hu => ?_
    obtain ⟨m, -, rfl⟩ := Option.map_eq_some_iff.1 ht
    obtain ⟨m', -, rfl⟩ := Option.map_eq_some_iff.1 hu
    show c.line + (a.2 : Int) < c.line + (b.2 : Int)
    omega

end Note

/-! ### The notes of a text -/

section

variable {rules : Rules} {cut : Bool} {text : Text} {segments : List Segment} {kinds : List Text}
  {t : Note}

/-- Line comments among the segments stay on their line. -/
theorem Segmentation.newline_not_mem (h : Segmentation rules cut [] text segments)
    (hkeeps : rules.KeepsLines) {l m : List Segment} {c : Comment}
    (hsegs : segments = l ++ .comment c :: m) {rule : Option LineRule}
    (hform : c.form = .line rule) : '\n' ∉ c.text := by
  obtain ⟨-, o, s, hrules, htext, hclose⟩ := h.comment_spec hsegs
  rw [hform] at hclose
  rw [htext]
  exact hclose.newline_not_mem hkeeps hrules

/-- The text is what is before a comment, the comment and what is after it. -/
theorem Segmentation.text_eq (h : Segmentation rules cut [] text segments) {l m : List Segment}
    {c : Comment} (hsegs : segments = l ++ .comment c :: m) :
    text = l.flatMap Segment.text ++ (c.text ++ m.flatMap Segment.text) := by
  rw [← h.flatMap_text, hsegs, List.flatMap_append, List.flatMap_cons]
  rfl

/-- A note of a comment among the segments is a row of it. -/
theorem Segmentation.isRow (h : Segmentation rules cut [] text segments)
    (hkeeps : rules.KeepsLines) {l m : List Segment} {c : Comment}
    (hsegs : segments = l ++ .comment c :: m) (ht : t ∈ Note.ofComment kinds c) :
    ∃ i, t.IsRow text (l.flatMap Segment.text) c (m.flatMap Segment.text) i := by
  obtain ⟨hline, o, s, -, hstart, hclose⟩ := h.comment_spec hsegs
  rw [List.nil_append] at hline
  obtain ⟨i, part, hpart, htext, htline, htcomment⟩ :=
    Note.row_of_mem_ofComment ht fun rule => h.newline_not_mem hkeeps hsegs
  have hrow := getElem?_pieces_between (l.flatMap Segment.text) (m.flatMap Segment.text) hpart
  -- Lines are counted from 1, rows and pieces from 0.
  have hindex : (t.line - 1).toNat = (l.flatMap Segment.text).count '\n' + i := by
    rw [htline, hline]
    omega
  rw [← h.text_eq hsegs, ← hindex] at hrow
  have hlt := (List.getElem?_eq_some_iff.1 hrow).1
  exact ⟨i, {
    text_eq := h.text_eq hsegs
    start_prefix := ⟨o.start, hclose.start?_eq, ⟨s, hstart.symm⟩⟩
    commentLine_eq := htcomment.trans hline
    line_eq := by rw [htline, htcomment]
    line_bounds := by omega
    newline_not_mem := by
      rw [htext]
      exact fun hmem =>
        not_mem_of_mem_pieces (List.mem_of_getElem? hpart) (Note.mem_of_mem_trim hmem)
    row := ⟨part, hpart, htext, hrow⟩ }⟩

/-- The notes of the comments among the segments come in the order of their lines. -/
theorem Segmentation.pairwise_notes (h : Segmentation rules cut [] text segments)
    (hkeeps : rules.KeepsLines) (kinds : List Text) :
    ((commentsOf segments).flatMap (Note.ofComment kinds)).Pairwise fun t u =>
      t.line ≤ u.line ∧ t.commentLine ≤ u.commentLine := by
  have hrow {c : Comment} {t : Note} (hc : c ∈ commentsOf segments)
      (ht : t ∈ Note.ofComment kinds c) :
      c.line ≤ t.line ∧ t.line ≤ c.lastLine ∧ t.commentLine = c.line := by
    obtain ⟨l, m, hsegs⟩ := exists_append_of_mem_commentsOf hc
    obtain ⟨i, part, hpart, -, hline, hcomment⟩ :=
      Note.row_of_mem_ofComment ht fun rule => h.newline_not_mem hkeeps hsegs
    have hi := (List.getElem?_eq_some_iff.1 hpart).1
    rw [length_pieces] at hi
    rw [Comment.lastLine]
    omega
  refine List.pairwise_flatMap.2 ⟨fun c hc => ?_, ?_⟩
  -- Within a comment the rows are in order, from one comment to another the comments are.
  · refine (Note.pairwise_ofComment kinds c).imp_of_mem
      fun {t u} ht hu hlt => ⟨Int.le_of_lt hlt, ?_⟩
    exact Int.le_of_eq ((hrow hc ht).2.2.trans (hrow hc hu).2.2.symm)
  · refine h.pairwise_line.imp_of_mem fun {c d} hc hd hle t ht u hu => ?_
    have hct := hrow hc ht
    have hdu := hrow hd hu
    have hlast : c.line ≤ c.lastLine := by
      rw [Comment.lastLine]
      omega
    omega

end

/-! ### A whole search -/

namespace Finder

/-- Draining a search delivers its next note, then what draining it from there does. -/
theorem drain_eq_next (f : Finder) :
    f.drain =
      match f.next with
      | (.ok (some t), f') => (t :: f'.drain.1, f'.drain.2)
      | (.ok none, f') => ([], .ok f'.scanner.error)
      | (.error e, _) => ([], .error e) := by
  fun_induction next f with
  | case1 f t notes hpending =>
    rw [drain, hpending]
    rfl
  | case2 f hpending scanner hnext =>
    rw [drain, hpending, Scanner.drain_of_none hnext]
    rfl
  | case3 f hpending e scanner hnext =>
    rw [drain, hpending, Scanner.drain_of_error hnext]
    rfl
  | case4 f hpending c scanner hnext hlt ih =>
    rw [← ih, drain, hpending, Scanner.drain_of_comment hnext, drain]
    simp

/-- A search just begun delivers the notes of all comments. -/
theorem drain_ofScanner (kinds : List Text) (s : Scanner) :
    (ofScanner kinds s).drain.1 = s.drain.1.flatMap (Note.ofComment (Note.ordered kinds)) := rfl

/-- Every note that is delivered is a row of a comment among the segments of the text, and notes
are delivered in the order of their lines and of the lines of their comments. -/
theorem drain_rows {name : String} {rules : Rules} (hlang : (name, rules) ∈ Language.table)
    (kinds : List Text) (octets : Octets) {charsetName : Text} {k : Codec}
    {maxPeek : Int} (chunkSize : Int) (hname : Charset.ofName charsetName = .ok (.plain k))
    (hpeek : 1 ≤ maxPeek) :
    ∃ r segments, Reader.ofOctets octets charsetName maxPeek chunkSize = .ok r ∧
      Segmentation rules (k.pass true octets).fault.isSome [] (k.pass true octets).runes segments ∧
      (∀ t ∈ (ofScanner kinds (.ofReader rules r)).drain.1,
        ∃ l c m i, segments = l ++ .comment c :: m ∧
          t.IsRow (k.pass true octets).runes (l.flatMap Segment.text) c (m.flatMap Segment.text)
            i) ∧
      (ofScanner kinds (.ofReader rules r)).drain.1.Pairwise fun t u =>
        t.line ≤ u.line ∧ t.commentLine ≤ u.commentLine := by
  -- No language of the table has a delimiter that would take a line comment over a line end.
  have hkeeps : rules.KeepsLines := by
    have htable : ∀ l ∈ Language.table, l.2.KeepsLines := by decide
    exact htable _ hlang
  obtain ⟨segments, hseg⟩ := exists_segmentation rules (k.pass true octets).fault.isSome []
    (k.pass true octets).runes
  obtain ⟨r, hr, hle⟩ := Scanner.drain_prefix_segmentation chunkSize hname hpeek hseg
  have hnotes : (ofScanner kinds (.ofReader rules r)).drain.1 <+:
      (commentsOf segments).flatMap (Note.ofComment (Note.ordered kinds)) := by
    obtain ⟨more, hmore⟩ := hle
    rw [drain_ofScanner, ← hmore, List.flatMap_append]
    exact List.prefix_append _ _
  refine ⟨r, segments, hr, hseg, fun t ht => ?_, ?_⟩
  · obtain ⟨c, hc, ht⟩ := List.mem_flatMap.1 (hnotes.subset ht)
    obtain ⟨l, m, hsegs⟩ := exists_append_of_mem_commentsOf hc
    obtain ⟨i, hrow⟩ := hseg.isRow hkeeps hsegs ht
    exact ⟨l, c, m, i, hsegs, hrow⟩
  · exact (hseg.pairwise_notes hkeeps _).sublist hnotes.sublist

/-- A block comment over two lines with a note on the second one, all of it delivered. -/
theorem drain_twoLines :
    ∃ r, Reader.ofOctets [0x2F, 0x2A, 0x0A, 0x54, 0x4F, 0x44, 0x4F, 0x2A, 0x2F] "utf-8".toList
        1024 4096 = .ok r ∧
      (ofScanner ["TODO".toList] (.ofReader Language.slashStyle r)).drain.1 =
        [⟨"TODO".toList, "TODO*/".toList, [], [], 2, 1⟩] := by
  have hblock : Reads (decideBlock Language.slashBlock) false 0 ['/', '*'] "\nTODO*/".toList []
      () :=
    .more (u := ['\n']) rfl (by decide) (.more (u := ['T']) rfl (by decide)
      (.more (u := ['O']) rfl (by decide) (.more (u := ['D']) rfl (by decide)
        (.more (u := ['O']) rfl (by decide) (.last rfl (by decide))))))
  have hseg : Segmentation Language.slashStyle false [] "/*\nTODO*/".toList
      [.comment ⟨"/*\nTODO*/".toList, 1, .block (some Language.slashBlock)⟩] :=
    @Segmentation.closed _ _ [] "\nTODO*/".toList [] (.block Language.slashBlock) _ _ rfl
      (.block hblock) .done
  have hpass : Codec.utf8.pass true [0x2F, 0x2A, 0x0A, 0x54, 0x4F, 0x44, 0x4F, 0x2A, 0x2F] =
      ⟨"/*\nTODO*/".toList, [], none⟩ := Codec.pass_utf8_of_ascii true (by simp)
  obtain ⟨r, last, hr, hdrain, -⟩ := Scanner.drain_of_octets hpass
    (show Charset.ofName "utf-8".toList = .ok (.plain .utf8) from rfl)
    (show Language.slashStyle.Fits (1024 : Int).toNat by decide)
    (show (4096 : Int) ≤ Reader.maxChunk by decide) hseg
  have hkinds : Note.ordered ["TODO".toList] = ["TODO".toList] := List.mergeSort_singleton _
  refine ⟨r, hr, ?_⟩
  rw [drain_ofScanner, hdrain, hkinds]
  rfl

theorem drain_rows_twoLines :
    ("C", Language.slashStyle) ∈ Language.table ∧
      Charset.ofName "utf-8".toList = .ok (.plain .utf8) ∧ (1 : Int) ≤ 1024 ∧
      ∃ r segments, Reader.ofOctets [0x2F, 0x2A, 0x0A, 0x54, 0x4F, 0x44, 0x4F, 0x2A, 0x2F]
          "utf-8".toList 1024 4096 = .ok r ∧
        (ofScanner ["TODO".toList] (.ofReader Language.slashStyle r)).drain.1 =
          [⟨"TODO".toList, "TODO*/".toList, [], [], 2, 1⟩] ∧
        ∃ l c m i, segments = l ++ .comment c :: m ∧
          Note.IsRow "/*\nTODO*/".toList (l.flatMap Segment.text) c (m.flatMap Segment.text) i
            ⟨"TODO".toList, "TODO*/".toList, [], [], 2, 1⟩ := by
  refine ⟨by decide, rfl, by decide, ?_⟩
  have hpass : Codec.utf8.pass true [0x2F, 0x2A, 0x0A, 0x54, 0x4F, 0x44, 0x4F, 0x2A, 0x2F] =
      ⟨"/*\nTODO*/".toList, [], none⟩ := Codec.pass_utf8_of_ascii true (by simp)
  obtain ⟨r, segments, hr, -, hrows, -⟩ :=
    drain_rows (show ("C", Language.slashStyle) ∈ Language.table by decide) ["TODO".toList]
      [0x2F, 0x2A, 0x0A, 0x54, 0x4F, 0x44, 0x4F, 0x2A, 0x2F] 4096
      (show Charset.ofName "utf-8".toList = .ok (.plain .utf8) from rfl)
      (show (1 : Int) ≤ 1024 by decide)
  rw [hpass] at hrows
  obtain ⟨r', hr', hdrain⟩ := drain_twoLines
  obtain rfl : r = r' := Except.ok.inj (hr.symm.trans hr')
  exact ⟨r, segments, hr, hdrain, hrows _ (by rw [hdrain]; exact List.mem_singleton_self _)⟩

end Finder

end SourceNotes
