/-
Kinds apart from one another.

Whether a line is a note is settled by each kind for itself: it is one as soon as some kind begins
it and what follows can be read, however the other kinds fare that are tried before. So more kinds
find more notes, and two lists of kinds together find what one of them finds. Kinds that do not
begin one another find the same in a line comment as in a block comment, where both find something.

* **`Match.Fits`** — a kind with which a text can be read;
* **`Match.isSome_read_iff`** — a text can be read with some kinds if it can with one of them;
* **`ordered_congr`** — the order of the kinds, kinds given twice and empty ones do not matter;
* **`places_append`** — the notes for two lists of kinds together;
* **`Apart.read_glued`** — what is read where a message has to be parted from the kind is read as
  well where it may stand directly behind it.
-/
import Mathlib.Data.List.Basic
import SourceNotes.Proofs.Note.Candidates
import SourceNotes.Proofs.Note.Grammar

namespace SourceNotes.Note

open Text
open scoped List

/-- The text begins with the kind, perhaps behind an at sign, and `r` is what follows. -/
def Match.Leaves (s kind r : Text) : Prop := s = kind ++ r ∨ s = '@' :: (kind ++ r)

/-- The text can be read with the kind. -/
def Match.Fits (glued : Bool) (s kind : Text) : Prop :=
  ∃ r, Match.Leaves s kind r ∧ (Tail.read glued r).isSome = true

/-- No kind begins another one, and none begins with an at sign. -/
structure Apart (kinds : List Text) : Prop where
  eq_of_prefix : ∀ a ∈ kinds, ∀ b ∈ kinds, a <+: b → a = b
  head?_ne : ∀ a ∈ kinds, a.head? ≠ some '@'

variable {kinds kinds' : List Text} {glued : Bool} {s r kind : Text}

/-! ### What one kind finds -/

theorem Match.of_first?_eq {m : Match} (h : Match.first? kinds glued s = some m) :
    m.kind ∈ kinds ∧ ∃ r, s = m.kind ++ r ∧ Tail.read glued r = some m.tail := by
  obtain ⟨kind, hkind, hfound⟩ := List.exists_of_findSome?_eq_some h
  split at hfound
  · next hstarts =>
    obtain ⟨r, rfl⟩ := List.isPrefixOf_iff_prefix.1 hstarts
    rw [List.drop_left] at hfound
    obtain ⟨tail, htail, rfl⟩ := Option.map_eq_some_iff.1 hfound
    exact ⟨hkind, r, rfl, htail⟩
  · cases hfound

theorem Match.isSome_first? (hkind : kind ∈ kinds) (htail : (Tail.read glued r).isSome = true) :
    (Match.first? kinds glued (kind ++ r)).isSome = true := by
  rw [Match.first?, List.findSome?_isSome_iff]
  have hstarts : startsWith kind (kind ++ r) = true :=
    List.isPrefixOf_iff_prefix.2 (List.prefix_append kind r)
  refine ⟨kind, hkind, ?_⟩
  rw [if_pos hstarts, List.drop_left, Option.isSome_map]
  exact htail

/-- What is read begins with one of the kinds, perhaps behind an at sign. -/
theorem Match.of_read_eq {m : Match} (h : Match.read kinds glued s = some m) :
    m.kind ∈ kinds ∧ ∃ r, Match.Leaves s m.kind r ∧ Tail.read glued r = some m.tail := by
  have hwhole {s : Text} (h : Match.first? kinds glued s = some m) :
      m.kind ∈ kinds ∧ ∃ r, Match.Leaves s m.kind r ∧ Tail.read glued r = some m.tail := by
    obtain ⟨hkind, r, hs, htail⟩ := Match.of_first?_eq h
    exact ⟨hkind, r, .inl hs, htail⟩
  unfold Match.read at h
  split at h
  · next rest =>
    rcases Option.or_eq_some_iff.1 h with hbehind | ⟨-, h⟩
    · obtain ⟨hkind, r, rfl, htail⟩ := Match.of_first?_eq hbehind
      exact ⟨hkind, r, .inr rfl, htail⟩
    · exact hwhole h
  · exact hwhole h

theorem Match.isSome_read (hkind : kind ∈ kinds) (hs : Match.Leaves s kind r)
    (htail : (Tail.read glued r).isSome = true) :
    (Match.read kinds glued s).isSome = true := by
  have hfirst := Match.isSome_first? hkind htail
  rcases hs with rfl | rfl
  · unfold Match.read
    split
    · next rest _ =>
      -- The kind begins with an at sign itself.
      rw [Option.isSome_or, hfirst, Bool.or_true]
    · exact hfirst
  · rw [Match.read, Option.isSome_or, hfirst, Bool.true_or]

/-- A text can be read with some kinds if it can be read with one of them. -/
theorem Match.isSome_read_iff :
    (Match.read kinds glued s).isSome = true ↔ ∃ kind ∈ kinds, Match.Fits glued s kind := by
  constructor
  · intro h
    obtain ⟨m, hm⟩ := Option.isSome_iff_exists.1 h
    obtain ⟨hkind, r, hs, htail⟩ := Match.of_read_eq hm
    exact ⟨m.kind, hkind, r, hs, by rw [htail]; rfl⟩
  · rintro ⟨kind, hkind, r, hs, htail⟩
    exact Match.isSome_read hkind hs htail

/-! ### More kinds, other lists of kinds -/

theorem mem_ordered_append :
    kind ∈ ordered (kinds ++ kinds') ↔ kind ∈ ordered kinds ∨ kind ∈ ordered kinds' := by
  rw [mem_ordered, mem_ordered, mem_ordered, List.mem_append, or_and_right]

/-- A candidate is a note for two lists of kinds together if it is for one of them. -/
theorem Candidate.isSome_match?_append (c : Candidate) :
    (c.match? (ordered (kinds ++ kinds'))).isSome =
      ((c.match? (ordered kinds)).isSome || (c.match? (ordered kinds')).isSome) := by
  rw [Bool.eq_iff_iff, Bool.or_eq_true]
  unfold Candidate.match?
  rw [Match.isSome_read_iff, Match.isSome_read_iff, Match.isSome_read_iff, ← exists_or]
  refine exists_congr fun kind => ?_
  rw [mem_ordered_append, or_and_right]

theorem nodup_eraseDups (kinds : List Text) : kinds.eraseDups.Nodup := by
  induction hn : kinds.length using Nat.strongRecOn generalizing kinds with
  | ind n ih =>
    cases kinds with
    | nil => exact List.nodup_nil
    | cons kind rest =>
      have hlt : (rest.filter fun b => !b == kind).length < n := by
        rw [← hn, List.length_cons]
        exact Nat.lt_succ_of_le (List.length_filter_le _ _)
      rw [List.eraseDups_cons, List.nodup_cons]
      exact ⟨by simp, ih _ hlt _ rfl⟩

/-- The order in which kinds are tried depends on nothing but which kinds there are. -/
theorem ordered_congr (h : ∀ kind, kind ≠ [] → (kind ∈ kinds ↔ kind ∈ kinds')) :
    ordered kinds = ordered kinds' := by
  have hnodup (kinds : List Text) : (ordered kinds).Nodup :=
    (List.mergeSort_perm _ _).nodup_iff.2 (nodup_eraseDups _)
  have hperm : (ordered kinds).Perm (ordered kinds') := by
    rw [List.perm_ext_iff_of_nodup (hnodup kinds) (hnodup kinds')]
    intro kind
    rw [mem_ordered, mem_ordered]
    exact and_congr_left (h kind)
  refine hperm.eq_of_pairwise ?_ (pairwise_triedBefore kinds) (pairwise_triedBefore kinds')
  -- Of two different kinds one is tried before the other, and not the other way round.
  intro a b _ _ hab hba
  rw [triedBefore_iff] at hab hba
  rcases hab with hlt | ⟨hlength, hab⟩ <;> rcases hba with hlt' | ⟨hlength', hba⟩
  · omega
  · omega
  · omega
  · exact notAfter_antisymm hab hba

/-- The places for two lists of kinds together are picked from the same candidates. -/
theorem places_append_eq (kinds kinds' : List Text) (comments : List Comment) :
    places (kinds ++ kinds') comments =
      ((comments.flatMap candidates).filter fun c =>
        (c.match? (ordered kinds)).isSome || (c.match? (ordered kinds')).isSome).map
          Candidate.place := by
  rw [places_eq, funext Candidate.isSome_match?_append]

/-- **Kinds act as a union.** With two lists of kinds together, notes are reported at the places at
which they are with one of the lists, and none is lost. The order of the kinds, kinds given twice
and empty ones do not matter to any note. A search reports the notes of the comments that its scan
delivers. -/
theorem places_append (kinds kinds' : List Text) (comments : List Comment) :
    (∀ p, p ∈ places (kinds ++ kinds') comments ↔
        p ∈ places kinds comments ∨ p ∈ places kinds' comments) ∧
      places kinds comments <+ places (kinds ++ kinds') comments ∧
      places kinds' comments <+ places (kinds ++ kinds') comments ∧
      (∀ others, (∀ kind, kind ≠ [] → (kind ∈ others ↔ kind ∈ kinds)) →
        ofComments others comments = ofComments kinds comments) ∧
      ∀ s : Scanner, (Finder.ofScanner kinds s).drain.1 = ofComments kinds s.drain.1 := by
  refine ⟨?_, ?_, ?_, ?_, drain_eq_ofComments kinds⟩
  · intro p
    rw [places_append_eq, places_eq, places_eq, List.mem_map, List.mem_map, List.mem_map,
      ← exists_or]
    refine exists_congr fun c => ?_
    rw [List.mem_filter, List.mem_filter, List.mem_filter, Bool.or_eq_true, and_or_left,
      or_and_right]
  · rw [places_append_eq, places_eq]
    refine (List.monotone_filter_right _ ?_).map _
    intro c hc
    rw [hc, Bool.true_or]
  · rw [places_append_eq, places_eq]
    refine (List.monotone_filter_right _ ?_).map _
    intro c hc
    rw [hc, Bool.or_true]
  · intro others hothers
    rw [ofComments, ofComments, ordered_congr hothers]

/-- In a block comment a kind given twice and an empty one make no difference. -/
theorem places_append_twice :
    (∀ kind, kind ≠ [] →
        (kind ∈ [['B'], [], ['A'], ['B']] ↔ kind ∈ ([['A'], ['B']] : List Text))) ∧
      ofComments [['B'], [], ['A'], ['B']] [⟨"/* B\nA */".toList, 1, .block none⟩] =
        ofComments [['A'], ['B']] [⟨"/* B\nA */".toList, 1, .block none⟩] := by
  have hsame : ∀ kind, kind ≠ [] →
      (kind ∈ [['B'], [], ['A'], ['B']] ↔ kind ∈ ([['A'], ['B']] : List Text)) := by
    intro kind hne
    simp only [List.mem_cons, List.not_mem_nil, or_false, hne, false_or]
    grind
  exact ⟨hsame, (places_append [['A'], ['B']] [] _).2.2.2.1 _ hsame⟩

/-! ### Line comments and block comments -/

/-- What can be read with a message parted from the kind is read the same without. -/
theorem Tail.read_true_of_read_false {tail : Tail} (h : Tail.read false r = some tail) :
    Tail.read true r = some tail := by
  unfold Tail.read at h ⊢
  by_cases hblank : allBlank r = true
  · rw [if_pos hblank] at h ⊢
    exact h
  · rw [if_neg hblank] at h ⊢
    cases hlabelled : labelled? r with
    | some parts => rwa [hlabelled] at h
    | none =>
      rw [hlabelled] at h
      dsimp only at h ⊢
      split at h
      · rwa [Bool.true_or, if_pos rfl]
      · cases h

theorem Apart.eq_of_append {a b t u : Text} (h : Apart kinds) (ha : a ∈ kinds) (hb : b ∈ kinds)
    (heq : a ++ t = b ++ u) : a = b ∧ t = u := by
  have hkind : a = b := by
    rcases List.prefix_or_prefix_of_prefix (List.prefix_append a t)
      (heq ▸ List.prefix_append b u) with hab | hba
    · exact h.eq_of_prefix a ha b hb hab
    · exact (h.eq_of_prefix b hb a ha hba).symm
  subst hkind
  exact ⟨rfl, List.append_cancel_left heq⟩

/-- A kind that is not empty does not begin a text with an at sign. -/
theorem Apart.ne_at (h : Apart kinds) (hkind : kind ∈ kinds) (hne : kind ≠ []) (t u : Text) :
    kind ++ t ≠ '@' :: u := by
  obtain ⟨c, rest, rfl⟩ := List.exists_cons_of_ne_nil hne
  intro heq
  have hc : c = '@' := (List.cons.inj heq).1
  exact h.head?_ne _ hkind (by rw [hc, List.head?_cons])

/-- With kinds apart a text can be taken to pieces in one way only. -/
theorem Apart.leaves_unique (h : Apart kinds) {a b t u : Text} (ha : a ∈ kinds) (hb : b ∈ kinds)
    (hane : a ≠ []) (hbne : b ≠ []) (hs : Match.Leaves s a t) (hs' : Match.Leaves s b u) :
    a = b ∧ t = u := by
  rcases hs with rfl | rfl <;> rcases hs' with heq | heq
  · exact h.eq_of_append ha hb heq
  · exact absurd heq (h.ne_at ha hane t _)
  · exact absurd heq.symm (h.ne_at hb hbne u _)
  · exact h.eq_of_append ha hb (List.cons.inj heq).2

/-- With kinds apart the kind that begins a text is read, whichever is tried first. -/
theorem Apart.read_eq (h : Apart kinds) (hkind : kind ∈ kinds) (hne : kind ≠ [])
    (hs : Match.Leaves s kind r) {tail : Tail} (htail : Tail.read glued r = some tail) :
    Match.read (ordered kinds) glued s = some ⟨kind, tail⟩ := by
  have hsome := Match.isSome_read (mem_ordered.2 ⟨hkind, hne⟩) hs (by rw [htail]; rfl)
  obtain ⟨⟨kind', tail'⟩, hread⟩ := Option.isSome_iff_exists.1 hsome
  obtain ⟨hkind', t, hs', htail'⟩ := Match.of_read_eq hread
  obtain ⟨hmem, hne'⟩ := mem_ordered.1 hkind'
  obtain ⟨rfl, rfl⟩ := h.leaves_unique hkind hmem hne hne' hs hs'
  rw [htail] at htail'
  cases htail'
  exact hread

theorem apart_defaultKinds : Apart defaultKinds :=
  ⟨by decide, by decide⟩

/-- **Line mode extends block mode.** With kinds apart, where the expression fits that wants a
message parted from the kind, the one that does not want so fits as well and remembers the same, and
the note that is made of it is the same. -/
theorem Apart.read_glued (h : Apart kinds) (s : Text) :
    (∀ caps, (expression (ordered kinds) false).captures s = some caps →
        (expression (ordered kinds) true).captures s = some caps) ∧
      ∀ text line commentLine note,
        (Match.read (ordered kinds) false s).map (ofMatch text line commentLine) = some note →
          (Match.read (ordered kinds) true s).map (ofMatch text line commentLine) =
            some note := by
  have hread {m : Match} (hm : Match.read (ordered kinds) false s = some m) :
      Match.read (ordered kinds) true s = some m := by
    obtain ⟨hkind, r, hs, htail⟩ := Match.of_read_eq hm
    obtain ⟨hmem, hne⟩ := mem_ordered.1 hkind
    exact h.read_eq hmem hne hs (Tail.read_true_of_read_false htail)
  constructor
  · intro caps hcaps
    rw [captures_expression] at hcaps ⊢
    obtain ⟨m, hm, rfl⟩ := Option.map_eq_some_iff.1 hcaps
    rw [hread hm, Option.map_some]
  · intro text line commentLine note hnote
    obtain ⟨m, hm, rfl⟩ := Option.map_eq_some_iff.1 hnote
    rw [hread hm, Option.map_some]

/-- A label that spans two lines, and a message behind marks, with the usual kinds. -/
theorem read_glued_twoLines :
    Apart defaultKinds ∧
      (Match.read (ordered defaultKinds) false "@TODO(a\n) - b".toList).map
          (ofMatch [] 1 1) = some ⟨"TODO".toList, [], ['a'], ['b'], 1, 1⟩ ∧
      (Match.read (ordered defaultKinds) true "@TODO(a\n) - b".toList).map
          (ofMatch [] 1 1) = some ⟨"TODO".toList, [], ['a'], ['b'], 1, 1⟩ := by
  have hread : Match.read (ordered defaultKinds) false "@TODO(a\n) - b".toList =
      some ⟨"TODO".toList, .labelledMessage "a\n".toList ['b']⟩ :=
    apart_defaultKinds.read_eq (show "TODO".toList ∈ defaultKinds by decide) (by decide)
      (r := "(a\n) - b".toList) (.inr rfl) (by decide)
  have hnote : (Match.read (ordered defaultKinds) false "@TODO(a\n) - b".toList).map
      (ofMatch [] 1 1) = some ⟨"TODO".toList, [], ['a'], ['b'], 1, 1⟩ := by
    rw [hread]
    decide
  exact ⟨apart_defaultKinds, hnote, (apart_defaultKinds.read_glued _).2 [] 1 1 _ hnote⟩

end SourceNotes.Note
