/-
Calls for comments and notes that pass no error on.

A scanner and a finder answer call after call, without an error, for every character set, every
list of rules and every content that has the mark it needs. Octets at fault end the scan: what
comes before them is answered, nothing behind them is looked at, and from then on there is no
answer but none.

* **`Finder.answer_of_drain`** — the answers of single calls, when all notes are known;
* **`Finder.answers_ofOctets`** — the answers of a scan and of a search, from the octets;
* **`Scanner.next_unmarked`** — content without its mark: the call passes an error on, and the next
  one answers with a comment from behind it.
-/
import SourceNotes.Proofs.Comment.Calls
import SourceNotes.Proofs.Note.Rows

namespace SourceNotes

open Head Text Charset

namespace Finder

/-- The finder after some calls for notes. -/
def after (f : Finder) : Nat → Finder
  | 0 => f
  | n + 1 => f.next.2.after n

variable {f f' : Finder} {notes : List Note} {error : Option ReadError}

/-- A search that has found nothing finds nothing again. -/
theorem next_of_none (h : f.next = (.ok none, f')) : f'.next = (.ok none, f') := by
  fun_induction next f with
  | case1 => cases h
  | case2 f hpending scanner hnext =>
    cases h
    have hagain := Scanner.next_of_finished (Scanner.finished_of_next hnext)
    rw [next]
    simp only [hpending]
    split
    all_goals rename_i heq; rw [hagain] at heq; cases heq
    rfl
  | case3 => cases h
  | case4 f hpending c scanner hnext hlt ih => exact ih h

/-- A search that can be drained answers call after call with a note, then always with none. -/
theorem answer_of_drain (h : f.drain = (notes, .ok error)) (n : Nat) :
    (f.after n).next.1 = .ok notes[n]? ∧
      (notes.length < n → (f.after n).scanner.error = error) := by
  induction n generalizing f notes with
  | zero =>
    refine ⟨?_, fun hn => by omega⟩
    show f.next.1 = _
    rw [drain_eq_next] at h
    rcases hnext : f.next with ⟨_ | _ | t, f'⟩
    · rw [hnext] at h
      cases h
    · rw [hnext] at h
      cases h
      rfl
    · rw [hnext] at h
      obtain ⟨rfl, -⟩ := Prod.mk.inj h
      rfl
  | succ n ih =>
    show (f.next.2.after n).next.1 = _ ∧ (_ → (f.next.2.after n).scanner.error = error)
    rw [drain_eq_next] at h
    rcases hnext : f.next with ⟨_ | _ | t, f'⟩
    · rw [hnext] at h
      cases h
    · -- From here on there is nothing.
      rw [hnext] at h
      cases h
      have hempty : f'.drain = ([], .ok f'.scanner.error) := by
        rw [drain_eq_next, next_of_none hnext]
      obtain ⟨hanswer, hafter⟩ := ih hempty
      refine ⟨hanswer.trans (by simp), fun _ => ?_⟩
      rcases n with _ | n
      · rfl
      · exact hafter (Nat.succ_pos n)
    · rw [hnext] at h
      obtain ⟨rfl, herror⟩ := Prod.mk.inj h
      obtain ⟨hanswer, hafter⟩ := ih (f := f') (Prod.ext rfl herror)
      refine ⟨hanswer.trans (by simp), fun hn => hafter ?_⟩
      simpa using hn

/-- No call for a comment or a note passes an error on, if the chunks can be taken and the content
has the mark that it needs. The answers are the comments before the fault and their notes, in order,
and then always none. A fault ends the scan with an error, which tells the fault unless the rules
look further ahead than the reader lets them. -/
theorem answers_ofOctets (rules : Rules) (kinds : List Text) {octets : Octets} {charset : Charset}
    {charsetName : Text} {maxPeek chunkSize : Int}
    (hname : Charset.ofName charsetName = .ok charset)
    (hpeek : 1 ≤ maxPeek) (hchunk : chunkSize ≤ Reader.maxChunk)
    (hmarked : ¬ charset.Unmarked octets) :
    ∃ r o segments comments last,
      Reader.ofOctets octets charsetName maxPeek chunkSize = .ok r ∧ charset.Yields octets o ∧
      Segmentation rules o.fault.isSome [] o.runes segments ∧ comments <+: commentsOf segments ∧
      (∀ n, ((Scanner.ofReader rules r).after n).next.1 = .ok comments[n]? ∧
        (comments.length < n → (Scanner.ofReader rules r).after n = last)) ∧
      (∀ n, ((ofScanner kinds (.ofReader rules r)).after n).next.1 =
          .ok (comments.flatMap (Note.ofComment (Note.ordered kinds)))[n]? ∧
        ((comments.flatMap (Note.ofComment (Note.ordered kinds))).length < n →
          ((ofScanner kinds (.ofReader rules r)).after n).scanner.error = last.error)) ∧
      last.Over o.fault ∧
      (rules.Fits maxPeek.toNat → comments = commentsOf segments ∧
        (o.fault = none → last.error = none) ∧
        ∀ f, o.fault = some f → ∃ line, last.error = some (.undecodable charsetName f line)) := by
  obtain ⟨r, o, hr, hyields, hdel⟩ := Reader.exists_delivers hname hpeek hchunk hmarked
  obtain ⟨hcharset, hlimit, hsize, hpos⟩ := Reader.fields_ofOctets hr
  have hone : (1 : Int) ≤ Reader.maxChunk := by decide
  obtain ⟨segments, hseg⟩ := exists_segmentation rules o.fault.isSome [] o.runes
  obtain ⟨comments, last, hdrain, hle, hover, hfits⟩ :=
    Scanner.drain_of_delivers hdel hpos (by omega) hseg
  have hnotes : (ofScanner kinds (.ofReader rules r)).drain =
      (comments.flatMap (Note.ofComment (Note.ordered kinds)), .ok last.error) := by
    refine Prod.ext (by rw [drain_ofScanner, hdrain]) ?_
    show (Scanner.ofReader rules r).drain.2.map Scanner.error = _
    rw [hdrain]
    rfl
  refine ⟨r, o, segments, comments, last, hr, hyields, hseg, hle, Scanner.answer_of_drain hdrain,
    answer_of_drain hnotes, hover, fun hfit => ?_⟩
  obtain ⟨hall, -, herror⟩ := hfits (hlimit ▸ hfit)
  refine ⟨hall, fun hnone => ?_, fun f hsome => ?_⟩
  · simpa [Source.ofReader, hnone] using herror
  · simpa [Source.ofReader, hsome, hcharset] using herror

/-- A comment in UTF-16 and half a pair of surrogates behind it, taken one octet at a time. -/
theorem answers_ofOctets_strayTrailer :
    Charset.ofName "utf-16".toList = .ok (.wideMarked .utf16) ∧
      ¬ (Charset.wideMarked .utf16).Unmarked
        [0xFF, 0xFE, 0x2F, 0x00, 0x2F, 0x00, 0x78, 0x00, 0x0A, 0x00, 0x00, 0xDC] ∧
      Language.slashStyle.Fits (1024 : Int).toNat ∧
      ∃ r last, Reader.ofOctets
          [0xFF, 0xFE, 0x2F, 0x00, 0x2F, 0x00, 0x78, 0x00, 0x0A, 0x00, 0x00, 0xDC]
          "utf-16".toList 1024 1 = .ok r ∧
        (Scanner.ofReader Language.slashStyle r).next.1 =
          .ok (some ⟨"//x".toList, 1, .line (some Language.slashLine)⟩) ∧
        (∀ n, 1 < n → (Scanner.ofReader Language.slashStyle r).after n = last) ∧
        ∃ line, last.error = some (.undecodable "utf-16".toList .strayTrailer line) := by
  have hname : Charset.ofName "utf-16".toList = .ok (.wideMarked .utf16) := rfl
  have hfit : Language.slashStyle.Fits (1024 : Int).toNat := by decide
  have hmarked : ¬ (Charset.wideMarked .utf16).Unmarked
      [0xFF, 0xFE, 0x2F, 0x00, 0x2F, 0x00, 0x78, 0x00, 0x0A, 0x00, 0x00, 0xDC] := by
    rintro ⟨horder, -⟩
    cases horder
  obtain ⟨r, o, segments, comments, last, hr, hyields, hseg, -, hcalls, -, -, hfits⟩ :=
    answers_ofOctets Language.slashStyle [] hname (show (1 : Int) ≤ 1024 by decide)
      (show (1 : Int) ≤ Reader.maxChunk by decide) hmarked
  have hdecode : (Charset.wideMarked .utf16).decode
      [0xFF, 0xFE, 0x2F, 0x00, 0x2F, 0x00, 0x78, 0x00, 0x0A, 0x00, 0x00, 0xDC] =
        ⟨"//x\n".toList, some .strayTrailer⟩ := by
    have hfront : (Codec.utf16 .little).Decodes [0x2F, 0x00, 0x2F, 0x00, 0x78, 0x00, 0x0A, 0x00]
        "//x\n".toList := Codec.decodes_encode (by decide)
    have hstep : (Codec.utf16 .little).step 0x00 [0xDC] = .bad .strayTrailer := by decide
    have hback : (Codec.utf16 .little).read [0x00, 0xDC] = ⟨[], some .strayTrailer⟩ := by
      rw [Codec.read, Codec.pass_of_bad true hstep]
    exact (hfront.read_append [0x00, 0xDC]).trans (by rw [hback]; rfl)
  obtain rfl : o = ⟨"//x\n".toList, some .strayTrailer⟩ := by
    rcases hyields with h | ⟨h, -, -⟩
    · exact h.symm.trans hdecode
    · cases h
  have hline : Reads decideLine true () ['/', '/'] ['x'] ['\n'] () :=
    .more (u := ['x']) rfl (by decide) (.stop rfl (by decide))
  have hseg' : Segmentation Language.slashStyle true [] "//x\n".toList
      [.comment ⟨"//x".toList, 1, .line (some Language.slashLine)⟩, .code '\n'] :=
    @Segmentation.closed _ _ [] ['x'] ['\n'] (.line Language.slashLine) _ _ rfl (.line hline)
      (.code rfl .done)
  obtain ⟨hall, -, herror⟩ := hfits hfit
  rw [hseg.unique hseg'] at hall
  subst hall
  exact ⟨hname, hmarked, hfit, r, last, hr, (hcalls 0).1, fun n hn => (hcalls n).2 hn,
    herror _ rfl⟩

end Finder

namespace Scanner

/-- Without its mark content in UTF-16 makes the first call pass an error on, and the chunk is lost.
The next call goes on with the next chunk, which here begins with a mark, and finds a comment. -/
theorem next_unmarked :
    ∃ r, Reader.ofOctets [0x61, 0x00, 0xFF, 0xFE, 0x2F, 0x00, 0x2F, 0x00, 0x78, 0x00]
        "utf-16".toList 1024 2 = .ok r ∧
      (ofReader Language.slashStyle r).next.1 = .error (.unmarked .utf16) ∧
      ((ofReader Language.slashStyle r).after 1).next.1 =
        .ok (some ⟨"//x".toList, 1, .line (some Language.slashLine)⟩) := by
  let r : Reader :=
    { charsetName := "utf-16".toList, maxPeek := 1024, chunkSize := 2
      decoder := .ofCharset (.wideMarked .utf16)
      unread := [0x61, 0x00, 0xFF, 0xFE, 0x2F, 0x00, 0x2F, 0x00, 0x78, 0x00] }
  let r₁ : Reader := { r with unread := [0xFF, 0xFE, 0x2F, 0x00, 0x2F, 0x00, 0x78, 0x00] }
  have hfed : r.decoder.feed [0x61, 0x00] false = .unmarked .utf16 r.decoder := by
    have hstep : (Codec.utf16 .little).step 0x61 [0x00] = .rune 'a' [] := by decide
    have hpass : (Wide.utf16.codec .little).pass false ([] ++ [0x61, 0x00]) =
        ⟨['a'], [], none⟩ := by
      show (Codec.utf16 .little).pass false [0x61, 0x00] = _
      rw [Codec.pass_of_rune false hstep, Codec.pass]
    have horder : Wide.utf16.orderOf ([] ++ [0x61, 0x00]) = none := by decide
    show Decoder.feedOrderMark .utf16 [] [0x61, 0x00] false = _
    rw [Decoder.feedOrderMark]
    simp only [horder, hpass]
    rfl
  have htake : Reader.takeChunk r = .error (.unmarked .utf16) r₁ := by
    unfold Reader.takeChunk
    have hchunk : r.unread.take r.chunkSize = [0x61, 0x00] := rfl
    simp only [hchunk, List.isEmpty_cons, hfed]
    rfl
  have hfill : r.fill 2 = .error (.unmarked .utf16) r₁ :=
    Reader.fill_of_takeChunk_error rfl rfl rfl htake (by decide)
  have hlook : look 2 { reader := r } = .error (.failed (.unmarked .utf16)) { reader := r₁ } := by
    rw [look, ask, Reader.look, if_neg (by decide), hfill]
  -- The first thing looked for is the start of a line comment.
  have hcode : codeStep Language.slashStyle () { reader := r } =
      .error (.failed (.unmarked .utf16)) { reader := r₁ } := by
    exact bind_of_error (bind_of_error (bind_of_error (bind_of_error (bind_of_error hlook))))
  have hnext : (ofReader Language.slashStyle r).next =
      (.error (.unmarked .utf16), ofReader Language.slashStyle r₁) := by
    have hrun : run (codeStep Language.slashStyle) (peeks_codeStep _) () [] { reader := r } =
        .error (.failed (.unmarked .utf16)) { reader := r₁ } := run_of_error hcode
    exact next_of_passed rfl (nextComment_of_error hrun) rfl
  have hseg : Segmentation Language.slashStyle false [] "//x".toList
      [.comment ⟨"//x".toList, 1, .line (some Language.slashLine)⟩] := by
    have hline : Reads decideLine false () ['/', '/'] ['x'] [] () :=
      .more (u := ['x']) rfl (by decide) (.stop rfl (by decide))
    exact @Segmentation.closed _ _ [] ['x'] [] (.line Language.slashLine) _ _ rfl (.line hline)
      .done
  have hunopened : Reader.Unopened (.wideMarked .utf16) r₁.unread r₁ :=
    ⟨rfl, rfl, rfl, rfl, rfl, by decide⟩
  have hmarked : ¬ (Charset.wideMarked .utf16).Unmarked r₁.unread := by
    rintro ⟨horder, -⟩
    cases horder
  obtain ⟨o, hyields, hdel⟩ := hunopened.exists_delivers hmarked
  have hdecodes : (Charset.wideMarked .utf16).decode r₁.unread = ⟨"//x".toList, none⟩ := by
    obtain ⟨hruns, hfault⟩ : (Codec.utf16 .little).Decodes [0x2F, 0x00, 0x2F, 0x00, 0x78, 0x00]
        "//x".toList := Codec.decodes_encode (by decide)
    show (Codec.utf16 .little).read [0x2F, 0x00, 0x2F, 0x00, 0x78, 0x00] = _
    rw [Codec.read, hruns, hfault]
  obtain rfl : o = ⟨"//x".toList, none⟩ := by
    rcases hyields with h | ⟨h, -, -⟩
    · exact h.symm.trans hdecodes
    · cases h
  obtain ⟨comments, last, hdrain, -, -, hfits⟩ := drain_of_delivers hdel rfl (by decide) hseg
  obtain ⟨rfl, -⟩ := hfits (by decide)
  refine ⟨r, rfl, by rw [hnext], ?_⟩
  show ((ofReader Language.slashStyle r).next.2).next.1 = _
  rw [hnext]
  exact (answer_of_drain hdrain 0).1

end Scanner

end SourceNotes
