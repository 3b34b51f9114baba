/-
Files whose character set is detected.

The same text, written in UTF-8, in UTF-8 with a mark or in UTF-16 or UTF-32 with a mark, has the
same comments when the character set is to be detected, if the file is opened at all. That is so
for UTF-8, with a mark or without. In UTF-32 no file is opened, as its mark has a NUL octet in it,
and in UTF-16 only one without a NUL octet among those that are looked at, which rules out every
letter and sign of ASCII near the start.

* **`SourceFile.detectCharset_of_encode`** — the mark tells the character set;
* **`SourceFile.looksBinary_of_encode`** — which encoded texts look like something other than text;
* **`SourceFile.ofOctets_detect`** — what becomes of a text in each encoding.
-/
import SourceNotes.Proofs.Comment.Calls
import SourceNotes.SourceFile

namespace SourceNotes

open Charset

namespace Charset

variable {x : Text} {octets : Octets}

/-- A rune at the front of the octets is the first rune of the text. -/
theorem Codec.Decodes.head?_eq {k : Codec} {b : UInt8} {s t : Octets} {c : Char}
    (h : k.Decodes (b :: s) x) (hstep : k.step b s = .rune c t) : x.head? = some c := by
  obtain ⟨rfl, -⟩ := h
  rw [Codec.pass_of_rune true hstep]
  rfl

/-- Octets that no rune begins with do not stand for a text. -/
theorem Codec.Decodes.ne_bad {k : Codec} {b : UInt8} {s : Octets} (h : k.Decodes (b :: s) x)
    (f : Fault) : k.step b s ≠ .bad f := by
  intro hstep
  obtain ⟨-, hfault⟩ := h
  rw [Codec.pass_of_bad true hstep] at hfault
  cases hfault

theorem zero_not_mem_utf8EncodeChar {c : Char} (hc : c ≠ '\x00') :
    (0 : UInt8) ∉ String.utf8EncodeChar c := by
  have hpos : 0 < c.toNat := by
    rw [Nat.pos_iff_ne_zero]
    intro hzero
    apply hc
    rw [← Char.ofNat_toNat c, hzero]
  have hne {n : Nat} (hn : 0 < n) (hlt : n < 0x100) : (0 : UInt8) ≠ UInt8.ofNat n := by
    intro h
    have hval := congrArg UInt8.toNat h
    rw [toNat_ofNat_of_lt hlt] at hval
    have hzero : (0 : UInt8).toNat = 0 := rfl
    omega
  have hvalid := toNat_valid c
  intro hmem
  rw [utf8EncodeChar_eq] at hmem
  split at hmem
  · simp only [List.mem_cons, List.not_mem_nil, or_false] at hmem
    exact hne hpos (by omega) hmem
  split at hmem
  · simp only [List.mem_cons, List.not_mem_nil, or_false] at hmem
    rcases hmem with h | h
    all_goals exact hne (by omega) (by omega) h
  split at hmem
  · simp only [List.mem_cons, List.not_mem_nil, or_false] at hmem
    rcases hmem with h | h | h
    all_goals exact hne (by omega) (by omega) h
  · simp only [List.mem_cons, List.not_mem_nil, or_false] at hmem
    rcases hmem with h | h | h | h
    all_goals exact hne (by omega) (by omega) h

/-- A text without NUL is written in UTF-8 without a NUL octet. -/
theorem zero_not_mem_encode_utf8 (hencode : Codec.utf8.encode x = some octets)
    (hnul : '\x00' ∉ x) : (0 : UInt8) ∉ octets := by
  induction x generalizing octets with
  | nil =>
    cases hencode
    exact List.not_mem_nil
  | cons c x ih =>
    rw [List.mem_cons, not_or] at hnul
    unfold Codec.encode at hencode
    split at hencode
    · next s t hs ht =>
      cases hs
      cases hencode
      rw [List.mem_append, not_or]
      exact ⟨zero_not_mem_utf8EncodeChar (Ne.symm hnul.1), ih ht hnul.2⟩
    · cases hencode

end Charset

namespace SourceFile

/-- The character sets that detection tells from one another, for the text `x`: a mark comes first,
or the text is written in UTF-8 and does not itself begin like one. -/
def Detects (x : Text) : Charset → Prop
  | .plain .utf8 => x.head? ≠ some markRune
  | .plain _ => False
  | .utf8Marked => True
  | .wideMarked _ => True

variable {x : Text} {charset : Charset} {order : ByteOrder} {octets : Octets}

theorem detectCharset_utf8 (hx : x.head? ≠ some markRune) (hnul : '\x00' ∉ x)
    (hencode : Codec.utf8.encode x = some octets) : detectCharset octets = .utf8 := by
  have hnul' : x.head? ≠ some '\x00' := fun h => hnul (List.mem_of_mem_head? h)
  have hno : ∀ m ∈ marks, ¬ m.1.isPrefixOf octets = true := by
    intro m hm hprefix
    obtain ⟨s, rfl⟩ := List.isPrefixOf_iff_prefix.1 hprefix
    have htext := Codec.decodes_encode hencode
    -- Octets that begin with a mark are no text, or one that begins with NUL or the mark.
    simp only [marks, List.mem_cons, List.not_mem_nil, or_false] at hm
    rcases hm with rfl | rfl | rfl | rfl | rfl
    · exact hnul' (htext.head?_eq rfl)
    · exact htext.ne_bad .startByte rfl
    · exact hx (htext.head?_eq rfl)
    · exact htext.ne_bad .startByte rfl
    · exact htext.ne_bad .startByte rfl
  rw [detectCharset, List.find?_eq_none.2 hno]
  rfl

/-- The mark of UTF-32 in little-endian order would have to be followed by a NUL. -/
theorem detectCharset_utf16_little {content : Octets} (hnul : '\x00' ∉ x)
    (hencode : (Codec.utf16 .little).encode x = some content) :
    detectCharset (Wide.utf16.mark .little ++ content) = .wideMarked .utf16 := by
  have hno : (Wide.utf32.mark .little).isPrefixOf (Wide.utf16.mark .little ++ content) = false := by
    rw [Bool.eq_false_iff]
    intro hprefix
    obtain ⟨s, hs⟩ := List.isPrefixOf_iff_prefix.1 hprefix
    have hoctets : 0xFF :: 0xFE :: 0 :: 0 :: s = 0xFF :: 0xFE :: content := hs
    cases hoctets
    have hstep : (Codec.utf16 .little).step 0 (0 :: s) = .rune '\x00' s := by
      simp [Codec.step, utf16Step, unit16, isTrailer, isLeader]
    exact hnul (List.mem_of_mem_head? ((Codec.decodes_encode hencode).head?_eq hstep))
  simp only [detectCharset, marks, List.find?_cons, hno]
  rfl

/-- Detection tells in which encoding a text is written. -/
theorem detectCharset_of_encode (hdetects : Detects x charset) (hnul : '\x00' ∉ x)
    (hencode : charset.encode order x = some octets) : detectCharset octets = charset := by
  cases charset with
  | plain k =>
    cases k with
    | utf8 => exact detectCharset_utf8 hdetects hnul hencode
    | _ => exact hdetects.elim
  | utf8Marked =>
    obtain ⟨content, -, rfl⟩ := Option.map_eq_some_iff.1 hencode
    rfl
  | wideMarked w =>
    obtain ⟨content, hcontent, rfl⟩ := Option.map_eq_some_iff.1 hencode
    cases w with
    | utf32 => cases order <;> rfl
    | utf16 =>
      cases order with
      | little => exact detectCharset_utf16_little hnul hcontent
      | big => rfl

/-- Text in UTF-8 never looks like anything else, text in UTF-32 always does, because of its
mark. -/
theorem looksBinary_of_encode (hnul : '\x00' ∉ x) (hencode : charset.encode order x = some octets) :
    (charset = .utf8 ∨ charset = .utf8Marked → looksBinary octets = false) ∧
      (charset = .wideMarked .utf32 → looksBinary octets = true) := by
  constructor
  · have htext {s : Octets} (hs : (0 : UInt8) ∉ s) : looksBinary s = false := by
      rw [looksBinary, Bool.eq_false_iff, ne_eq, List.contains_iff_mem]
      exact fun hmem => hs (List.mem_of_mem_take hmem)
    rintro (rfl | rfl)
    · exact htext (zero_not_mem_encode_utf8 hencode hnul)
    · obtain ⟨content, hcontent, rfl⟩ := Option.map_eq_some_iff.1 hencode
      apply htext
      rw [List.mem_append, not_or]
      exact ⟨by simp [utf8Mark], zero_not_mem_encode_utf8 hcontent hnul⟩
  · rintro rfl
    obtain ⟨content, -, rfl⟩ := Option.map_eq_some_iff.1 hencode
    cases order <;> rfl

/-- The rules of every language suit a reader with the usual limits. -/
theorem fits_of_rules? {language : String} {rules : Rules}
    (hrules : Language.rules? language = some rules) : rules.Fits 1024 := by
  have htable : ∀ l ∈ Language.table, l.2.Fits 1024 := by decide
  obtain ⟨l, m, hlm, -⟩ := List.lookup_eq_some_iff.1 hrules
  apply htable (language, rules)
  rw [hlm]
  exact List.mem_append_right _ (List.mem_cons_self ..)

/-- A text in an encoding is scanned to its end, and has the comments of its segments. -/
theorem drain_of_encode {rules : Rules} {segments : List Segment} (hfits : rules.Fits 1024)
    (hencode : charset.encode order x = some octets)
    (hseg : Segmentation rules false [] x segments) :
    ∃ last, (Scanner.ofReader rules (.ofCharset charset octets)).drain =
      (commentsOf segments, .ok last) ∧ last.error = none := by
  -- The reader finds the whole text, and the rules let it be scanned to the end.
  obtain ⟨hdecode, hmarked⟩ := decode_encode hencode
  have hunopened := Reader.unopened_ofCharset charset octets
  obtain ⟨o, hyields, hdel⟩ := hunopened.exists_delivers hmarked
  obtain rfl : o = ⟨x, none⟩ := by
    rcases hyields with h | ⟨-, hfault, h⟩
    · exact h.symm.trans hdecode
    · rw [hdecode] at h
      exact absurd (congrArg Outlook.fault h).symm hfault
  obtain ⟨comments, last, hdrain, -, -, hwhole⟩ :=
    Scanner.drain_of_delivers hdel rfl hunopened.chunkSize_le hseg
  obtain ⟨rfl, -, herror⟩ := hwhole hfits
  exact ⟨last, hdrain, herror⟩

/-- A text whose language is known has the same comments in every encoding that detection tells, and
no error, unless its octets look like something other than text: then it is not opened. -/
theorem ofOctets_detect {path : Text} {language : String} {rules : Rules}
    (hlang : Language.ofPath? path = some language)
    (hrules : Language.rules? language = some rules) (hnul : '\x00' ∉ x) :
    ∃ segments, Segmentation rules false [] x segments ∧
      ∀ charset order octets, Detects x charset → charset.encode order x = some octets →
        (looksBinary octets = true →
          ofOctets path octets (.ofText detectName) = .error (.binary path)) ∧
        (looksBinary octets = false →
          ∃ file last, ofOctets path octets (.ofText detectName) = .ok file ∧
            file.language = language ∧ file.charset = charset ∧
            file.scanner.drain = (commentsOf segments, .ok last) ∧ last.error = none) ∧
        (charset = .utf8 ∨ charset = .utf8Marked → looksBinary octets = false) ∧
        (charset = .wideMarked .utf32 → looksBinary octets = true) := by
  obtain ⟨segments, hseg⟩ := exists_segmentation rules false [] x
  refine ⟨segments, hseg, fun charset order octets hdetects hencode => ?_⟩
  have hcharset := detectCharset_of_encode hdetects hnul hencode
  refine ⟨fun hbinary => ?_, fun htext => ?_, looksBinary_of_encode hnul hencode⟩
  · rw [ofOctets, if_pos hbinary]
  · have hresolve : resolveCharset (.ofText detectName) octets = .ok charset := by
      rw [resolveCharset, Codes.text?_ofText, ← hcharset]
      rfl
    have hopen : ofOctets path octets (.ofText detectName) = .ok
        { language, charset, scanner := .ofReader rules (.ofCharset charset octets) } := by
      rw [ofOctets, if_neg (by rw [htext]; exact Bool.false_ne_true)]
      simp only [hresolve, hlang, hrules]
    obtain ⟨last, hdrain, herror⟩ := drain_of_encode (fits_of_rules? hrules) hencode hseg
    exact ⟨_, last, hopen, rfl, rfl, hdrain, herror⟩

/-- A comment in UTF-8 with a mark is found. -/
theorem ofOctets_detect_lineComment :
    Language.ofPath? "a.c".toList = some "C" ∧ Language.rules? "C" = some Language.slashStyle ∧
      '\x00' ∉ "//x".toList ∧
      ∃ file last, ofOctets "a.c".toList [0xEF, 0xBB, 0xBF, 0x2F, 0x2F, 0x78] (.ofText detectName) =
          .ok file ∧
        file.scanner.drain =
          ([⟨"//x".toList, 1, .line (some Language.slashLine)⟩], .ok last) := by
  have hlang : Language.ofPath? "a.c".toList = some "C" := by decide
  have hrules : Language.rules? "C" = some Language.slashStyle := by decide
  have hnul : '\x00' ∉ "//x".toList := by decide
  refine ⟨hlang, hrules, hnul, ?_⟩
  obtain ⟨segments, hseg, hfiles⟩ := ofOctets_detect hlang hrules hnul
  have hencode : Charset.utf8Marked.encode .little "//x".toList =
      some [0xEF, 0xBB, 0xBF, 0x2F, 0x2F, 0x78] := by decide
  obtain ⟨-, hopens, htext, -⟩ := hfiles .utf8Marked .little _ trivial hencode
  obtain ⟨file, last, hopen, -, -, hdrain, -⟩ := hopens (htext (.inr rfl))
  have hline : Reads decideLine false () ['/', '/'] ['x'] [] () :=
    .more (u := ['x']) rfl (by decide) (.stop rfl (by decide))
  have hseg' : Segmentation Language.slashStyle false [] "//x".toList
      [.comment ⟨"//x".toList, 1, .line (some Language.slashLine)⟩] :=
    @Segmentation.closed _ _ [] ['x'] [] (.line Language.slashLine) _ _ rfl (.line hline) .done
  obtain rfl := hseg.unique hseg'
  exact ⟨file, last, hopen, hdrain⟩

/-- The same comment in UTF-16 with a mark is not looked for: its octets look like something other
than text. -/
theorem ofOctets_detect_utf16 :
    Language.ofPath? "a.c".toList = some "C" ∧ '\x00' ∉ "//x".toList ∧
      (Charset.wideMarked .utf16).encode .little "//x".toList =
        some [0xFF, 0xFE, 0x2F, 0x00, 0x2F, 0x00, 0x78, 0x00] ∧
      detectCharset [0xFF, 0xFE, 0x2F, 0x00, 0x2F, 0x00, 0x78, 0x00] = .wideMarked .utf16 ∧
      ofOctets "a.c".toList [0xFF, 0xFE, 0x2F, 0x00, 0x2F, 0x00, 0x78, 0x00] (.ofText detectName) =
        .error (.binary "a.c".toList) := by
  refine ⟨by decide, by decide, by decide, by decide, ?_⟩
  rw [ofOctets, if_pos (by decide)]

end SourceFile

end SourceNotes
