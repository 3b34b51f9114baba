/-
What a note tells is cut out of its line.

The body of a line is cut out of the line, and the parts of a note are cut out of the body one after
another: the kind, the label, the message. Nothing is put together from different places, put in
another order or made up.

* **`trim_isInfix`**, **`trim_trim`** — trimming cuts, and once is enough;
* **`Tail.exists_cut`** — the label and the message in what follows the kind;
* **`IsExcerpt`** — the parts of a note in its line;
* **`excerpts_ofComment`** — this holds of all notes of a comment, of which there is one on a line
  at most.
-/
import Mathlib.Data.List.DropRight
import SourceNotes.Proofs.Note.Candidates
import SourceNotes.Proofs.Note.Kinds

namespace SourceNotes.Note

open Text
open scoped List

/-- A note of one of the kinds, with its parts cut out of its line in order. -/
structure IsExcerpt (kinds : List Text) (t : Note) : Prop where
  kind_ne_nil : t.kind ≠ []
  kind_mem : t.kind ∈ kinds
  label_closed : ')' ∉ t.label
  trim_label : trim t.label = t.label
  trim_message : trim t.message = t.message
  trim_text : trim t.text = t.text
  text_eq : ∃ a b c d, t.text = a ++ t.kind ++ b ++ t.label ++ c ++ t.message ++ d

variable {kinds : List Text} {glued : Bool} {s r : Text} {c : Comment} {t : Note}

/-! ### Trimming -/

theorem dropEndWhile_isPrefix (p : Char → Bool) (s : Text) : dropEndWhile p s <+: s := by
  rw [dropEndWhile, ← List.reverse_suffix, List.reverse_reverse]
  exact List.dropWhile_suffix p

theorem trim_isInfix (s : Text) : trim s <:+: s :=
  (dropEndWhile_isPrefix isBlank (trimStart s)).isInfix.trans
    (List.dropWhile_suffix isBlank).isInfix

/-- What is trimmed does not begin with a blank. -/
theorem trimStart_trim (s : Text) : trimStart (trim s) = trim s := by
  cases h : trim s with
  | nil => rfl
  | cons c rest =>
    obtain ⟨behind, hstart⟩ : c :: rest <+: trimStart s :=
      h ▸ dropEndWhile_isPrefix isBlank (trimStart s)
    have hc : isBlank c = false := not_of_dropWhile_eq (show trimStart s = _ from hstart.symm)
    exact List.dropWhile_cons_of_neg (by rw [hc]; exact Bool.false_ne_true)

theorem trim_trim (s : Text) : trim (trim s) = trim s := by
  rw [trim, trimStart_trim, trim, trimEnd, trimEnd, dropEndWhile, dropEndWhile,
    List.reverse_reverse, List.dropWhile_idempotent]

/-! ### The body in the line -/

theorem dropPrefix_isSuffix (p s : Text) : dropPrefix p s <:+ s := by
  unfold dropPrefix
  split
  · exact List.drop_suffix _ _
  · exact List.suffix_refl s

theorem dropSuffix_isPrefix (p s : Text) : dropSuffix p s <+: s := by
  unfold dropSuffix
  split
  · exact List.take_prefix _ _
  · exact List.prefix_refl s

theorem lineBody_isInfix (rule : Option LineRule) (s : Text) : lineBody rule s <:+: s := by
  cases rule with
  | none => exact trim_isInfix s
  | some rule => exact (trim_isInfix _).trans (List.dropWhile_suffix _).isInfix

theorem blockBody_isInfix (rule : Option BlockRule) (s : Text) : blockBody rule s <:+: s := by
  have hdecoration (inner : Text) :
      trim (inner.dropWhile fun c => isBlank c || c == '*') <:+: inner :=
    (trim_isInfix _).trans (List.dropWhile_suffix _).isInfix
  cases rule with
  | none => exact hdecoration s
  | some rule =>
    exact (hdecoration _).trans
      ((dropSuffix_isPrefix _ _).isInfix.trans (dropPrefix_isSuffix _ _).isInfix)

/-- The body of a candidate is cut out of its line, which is trimmed. -/
theorem body_isInfix {candidate : Candidate} (h : candidate ∈ candidates c) :
    candidate.body <:+: candidate.place.text ∧ trim candidate.place.text = candidate.place.text ∧
      candidate.place.commentLine = c.line := by
  unfold candidates at h
  split at h
  · rw [List.mem_singleton.1 h]
    exact ⟨lineBody_isInfix _ _, trim_trim _, rfl⟩
  · obtain ⟨row, -, rfl⟩ := List.mem_map.1 h
    exact ⟨blockBody_isInfix _ _, trim_trim _, rfl⟩

/-! ### The parts in the body -/

theorem oneLine_isPrefix {message : Text} (h : oneLine s = some message) : message <+: s := by
  unfold oneLine at h
  dsimp only at h
  split at h
  · cases h
    exact List.takeWhile_prefix _
  · cases h

theorem afterMarks_isSuffix (s : Text) : afterMarks s <:+ s :=
  (List.dropWhile_suffix _).trans ((List.dropWhile_suffix _).trans (List.dropWhile_suffix _))

/-- A message is cut out of the text that it is looked for in. -/
theorem message_isInfix {message : Text} (h : oneLine (afterMarks s) = some message) :
    trim message <:+: s :=
  (trim_isInfix message).trans
    ((oneLine_isPrefix h).isInfix.trans (afterMarks_isSuffix s).isInfix)

/-- The label and the message of a tail are cut out of what follows the kind, in this order. -/
theorem Tail.exists_cut {tail : Tail} (h : Tail.read glued r = some tail) :
    ')' ∉ tail.labelText ∧ ∃ b c d, r = b ++ tail.labelText ++ c ++ tail.messageText ++ d := by
  unfold Tail.read at h
  split at h
  · cases h
    exact ⟨List.not_mem_nil, r, [], [], by simp [labelText, messageText]⟩
  · split at h
    · next label rest hlabelled =>
      obtain ⟨rfl, hclosed⟩ := labelled?_eq_some_iff.1 hlabelled
      obtain ⟨x, y, hlabel⟩ := trim_isInfix label
      have htrim : ')' ∉ trim label := fun hmem => hclosed (mem_of_mem_trim hmem)
      split at h
      · cases h
        refine ⟨htrim, '(' :: x, y ++ ')' :: rest, [], ?_⟩
        conv_lhs => rw [← hlabel]
        simp [labelText, messageText]
      · obtain ⟨message, hmessage, rfl⟩ := Option.map_eq_some_iff.1 h
        obtain ⟨v, w, hrest⟩ := message_isInfix hmessage
        refine ⟨htrim, '(' :: x, y ++ ')' :: v, w, ?_⟩
        conv_lhs => rw [← hlabel, ← hrest]
        simp [labelText, messageText]
    · split at h
      · obtain ⟨message, hmessage, rfl⟩ := Option.map_eq_some_iff.1 h
        obtain ⟨v, w, hr⟩ := message_isInfix hmessage
        refine ⟨List.not_mem_nil, [], v, w, ?_⟩
        conv_lhs => rw [← hr]
        simp [labelText, messageText]
      · cases h

theorem Tail.trim_labelText (tail : Tail) : trim tail.labelText = tail.labelText := by
  cases tail with
  | bare => rfl
  | labelled label => exact trim_trim label
  | labelledMessage label message => exact trim_trim label
  | plain message => rfl

theorem Tail.trim_messageText (tail : Tail) : trim tail.messageText = tail.messageText := by
  cases tail with
  | bare => rfl
  | labelled label => rfl
  | labelledMessage label message => exact trim_trim message
  | plain message => exact trim_trim message

/-- The note that is read in a candidate is an excerpt of its line. -/
theorem isExcerpt_of_note? {candidate : Candidate} (hmem : candidate ∈ candidates c)
    (h : candidate.note? (ordered kinds) = some t) : t.IsExcerpt kinds := by
  obtain ⟨m, hm, rfl⟩ := Option.map_eq_some_iff.1 h
  obtain ⟨⟨before, behind, htext⟩, htrim, -⟩ := body_isInfix hmem
  obtain ⟨hkind, r, hbody, htail⟩ := Match.of_read_eq hm
  obtain ⟨hkinds, hne⟩ := mem_ordered.1 hkind
  obtain ⟨hclosed, b, c, d, rfl⟩ := Tail.exists_cut htail
  -- An at sign may stand before the kind.
  obtain ⟨a, ha⟩ : ∃ a, candidate.body = a ++ m.kind ++
      (b ++ m.tail.labelText ++ c ++ m.tail.messageText ++ d) := by
    rcases hbody with h | h
    · exact ⟨[], h⟩
    · exact ⟨['@'], h⟩
  refine ⟨hne, hkinds, hclosed, m.tail.trim_labelText, m.tail.trim_messageText, htrim,
    before ++ a, b, c, d ++ behind, ?_⟩
  show candidate.place.text = before ++ a ++ m.kind ++ b ++ m.tail.labelText ++ c ++
    m.tail.messageText ++ (d ++ behind)
  rw [← htext, ha]
  simp only [List.append_assoc]

/-! ### The notes of a comment -/

/-- **What a note tells is cut out of its line**: the kind, which is one of the wanted ones, then
the label, then the message, both without blanks around them. A line comment holds one note at most,
a block comment at most one on each of its lines. -/
theorem excerpts_ofComment (kinds : List Text) (c : Comment) :
    (∀ t ∈ ofComment (ordered kinds) c, t.IsExcerpt kinds ∧ t.commentLine = c.line) ∧
      (∀ rule, c.form = .line rule → (ofComment (ordered kinds) c).length ≤ 1 ∧
        ∀ t ∈ ofComment (ordered kinds) c, t.text = trim c.text ∧ t.line = t.commentLine) ∧
      ∀ rule, c.form = .block rule →
        ((ofComment (ordered kinds) c).Pairwise fun t u => t.line < u.line) ∧
        ∀ t ∈ ofComment (ordered kinds) c, ∃ (i : Nat) (row : Text),
          (pieces '\n' c.text)[i]? = some row ∧ t.text = trim row ∧
            t.line = t.commentLine + i := by
  refine ⟨fun t ht => ?_, fun rule hform => ?_, fun rule hform => ?_⟩
  · obtain ⟨candidate, hmem, hnote⟩ := mem_ofComment_iff.1 ht
    refine ⟨isExcerpt_of_note? hmem hnote, ?_⟩
    obtain ⟨m, -, rfl⟩ := Option.map_eq_some_iff.1 hnote
    exact (body_isInfix hmem).2.2
  · rw [ofComment, hform]
    refine ⟨Option.length_toList_le, fun t ht => ?_⟩
    obtain ⟨m, -, rfl⟩ := Option.map_eq_some_iff.1 (Option.mem_toList.1 ht)
    exact ⟨rfl, rfl⟩
  · refine ⟨pairwise_ofComment _ c, fun t ht => ?_⟩
    obtain ⟨i, row, hrow, htext, hline, hcomment⟩ := row_of_mem_ofComment ht
      fun rule' h => by rw [hform] at h; cases h
    exact ⟨i, row, hrow, htext, by rw [hline, hcomment]⟩

/-- A note with an at sign, a label and a message on the second line of a block comment. -/
theorem excerpts_ofComment_second :
    (⟨"TODO".toList, "* @TODO( a ) - b".toList, ['a'], ['b'], 8, 7⟩ : Note) ∈
        ofComment (ordered ["TODO".toList]) ⟨"/**\n * @TODO( a ) - b\n */".toList, 7,
          .block none⟩ ∧
      IsExcerpt ["TODO".toList]
        ⟨"TODO".toList, "* @TODO( a ) - b".toList, ['a'], ['b'], 8, 7⟩ := by
  have hkinds : ordered ["TODO".toList] = ["TODO".toList] := List.mergeSort_singleton _
  have hmem : (⟨"TODO".toList, "* @TODO( a ) - b".toList, ['a'], ['b'], 8, 7⟩ : Note) ∈
      ofComment (ordered ["TODO".toList]) ⟨"/**\n * @TODO( a ) - b\n */".toList, 7,
        .block none⟩ := by
    rw [hkinds]
    decide
  exact ⟨hmem, ((excerpts_ofComment _ _).1 _ hmem).1⟩

end SourceNotes.Note
