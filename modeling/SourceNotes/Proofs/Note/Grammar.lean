/-
Which texts are notes, and what is read in them.

A line is a note if it begins with one of the wanted kinds and something follows that may follow a
kind. Whether an at sign at its start belongs to it, which kind it is of where several begin it,
and where its label and its message lie, is settled by the line alone.

* **`Match.Begins`** — a kind with which a line can be read;
* **`Tail.Splits`** — the label and the message in what follows the kind;
* **`Match.read_grammar`** — what is read in a line, for all lines and kinds, by its parts and by
  the expression for a note.
-/
import SourceNotes.Proofs.Note.Expression
import SourceNotes.Proofs.Text.Pieces

namespace SourceNotes.Note

open Text

/-- The kind, the label and the message of a note. -/
structure Fields where
  kind : Text
  label : Text
  message : Text

/-- The fields of a match. -/
def Match.fields (m : Match) : Fields := ⟨m.kind, m.tail.labelText, m.tail.messageText⟩

/-- The first of two parts that was found and is not empty. -/
def eitherOf (a b : Option Text) : Text := if a.getD [] = [] then b.getD [] else a.getD []

/-- The fields of a note in what the expression for it remembers. -/
def Fields.ofCaptures (caps : Captures) : Fields where
  kind := (caps.lookup .kind).getD []
  label := trim (eitherOf (caps.lookup .label) (caps.lookup .labelWithMessage))
  message := trim (eitherOf (caps.lookup .message) (caps.lookup .labelMessage))

/-- A parenthesis at the start, and one that closes it. -/
def Tail.IsLabelled (r : Text) : Prop := ∃ s, r = '(' :: s ∧ ')' ∈ s

/-- What may follow a kind. In glued mode that is anything. -/
def Tail.Accepts (glued : Bool) (r : Text) : Prop :=
  glued = true ∨ r = [] ∨ isParted r = true ∨ Tail.IsLabelled r

/-- The label and the message in what follows a kind. -/
inductive Tail.Splits : Text → Text → Text → Prop
  | labelled {label rest : Text} (hlabel : ')' ∉ label) :
      Splits ('(' :: (label ++ ')' :: rest)) (trim label) (trim (afterMarks rest))
  | plain {r : Text} (h : ¬ Tail.IsLabelled r) : Splits r [] (trim (afterMarks r))

/-- The line `t` begins with the kind, and what follows may follow it. -/
def Match.Begins (kinds : List Text) (glued : Bool) (t kind : Text) : Prop :=
  kind ∈ kinds ∧ kind ≠ [] ∧ ∃ r, t = kind ++ r ∧ Tail.Accepts glued r

/-- The line `t` is what `s` is behind an at sign, if a kind begins that, and else it is `s`. -/
inductive Match.Chosen (kinds : List Text) (glued : Bool) : Text → Text → Prop
  | behind {t kind : Text} (h : Match.Begins kinds glued t kind) : Chosen kinds glued ('@' :: t) t
  | whole {s : Text} (h : ∀ t kind, s = '@' :: t → ¬ Match.Begins kinds glued t kind) :
      Chosen kinds glued s s

variable {kinds : List Text} {glued : Bool} {s t r kind : Text}

theorem eitherOf_none (text : Text) : eitherOf (some text) none = text := by
  unfold eitherOf
  split
  · next h => exact h.symm
  · rfl

theorem fields_ofCaptures (m : Match) : Fields.ofCaptures m.captures = m.fields := by
  obtain ⟨kind, tail⟩ := m
  cases tail with
  | bare => rfl
  | labelled label =>
    show Fields.mk kind (trim (eitherOf (some label) none)) _ = _
    rw [eitherOf_none]
    rfl
  | labelledMessage label message => rfl
  | plain message =>
    show Fields.mk kind _ (trim (eitherOf (some message) none)) = _
    rw [eitherOf_none]
    rfl

/-! ### What follows a kind -/

theorem oneLine_of_not_mem (h : '\n' ∉ s) : oneLine s = some s := by
  have hline : ∀ c ∈ s, decide (c ≠ '\n') = true := by
    intro c hc
    refine decide_eq_true ?_
    rintro rfl
    exact h hc
  rw [oneLine, List.dropWhile_eq_nil_iff.2 hline, if_pos (.inl rfl),
    List.takeWhile_eq_self_iff.2 hline]

theorem not_mem_afterMarks {c : Char} (h : c ∉ s) : c ∉ afterMarks s := by
  intro hc
  have hmarks := (List.dropWhile_suffix _).subset hc
  have hblanks := (List.dropWhile_suffix _).subset hmarks
  exact h ((List.dropWhile_suffix _).subset hblanks)

theorem isLabelled_iff : Tail.IsLabelled r ↔ ∃ label rest, labelled? r = some (label, rest) := by
  constructor
  · rintro ⟨s, rfl, hmem⟩
    obtain ⟨label, rest, rfl, hlabel⟩ := List.eq_append_cons_of_mem hmem
    exact ⟨label, rest, labelled?_eq_some_iff.2 ⟨rfl, hlabel⟩⟩
  · rintro ⟨label, rest, h⟩
    exact ⟨_, (labelled?_eq_some_iff.1 h).1, by simp⟩

theorem afterMarks_of_allBlank (h : allBlank s = true) : afterMarks s = [] := by
  have hnil : trimStart s = [] := List.dropWhile_eq_nil_iff.2 (List.all_eq_true.1 h)
  rw [afterMarks, hnil]
  rfl

theorem isParted_of_allBlank (h : allBlank r = true) : r = [] ∨ isParted r = true := by
  cases r with
  | nil => exact .inl rfl
  | cons c s =>
    rw [allBlank, List.all_cons, Bool.and_eq_true] at h
    exact .inr (by rw [isParted, h.1, Bool.true_or])

theorem Tail.splits_of_labelled {label rest : Text} (h : labelled? r = some (label, rest)) :
    Tail.Splits r (trim label) (trim (afterMarks rest)) := by
  obtain ⟨rfl, hlabel⟩ := labelled?_eq_some_iff.1 h
  exact .labelled hlabel

theorem not_isLabelled_of_none (h : labelled? r = none) : ¬ Tail.IsLabelled r := by
  intro hlabelled
  obtain ⟨label, rest, hsome⟩ := isLabelled_iff.1 hlabelled
  rw [h] at hsome
  cases hsome

theorem not_isLabelled_of_allBlank (h : allBlank r = true) : ¬ Tail.IsLabelled r := by
  rintro ⟨s, rfl, -⟩
  rw [allBlank, List.all_cons, Bool.and_eq_true] at h
  exact absurd h.1 (by decide)

theorem not_mem_of_labelled {c : Char} {label rest : Text} (h : labelled? r = some (label, rest))
    (hc : c ∉ r) : c ∉ rest := by
  intro hmem
  rw [(labelled?_eq_some_iff.1 h).1] at hc
  exact hc (by simp [hmem])

/-- What is read behind a kind in one line may follow it, and is split into its label and its
message. -/
theorem Tail.splits_of_read (hline : '\n' ∉ r) {tail : Tail} (h : Tail.read glued r = some tail) :
    Tail.Accepts glued r ∧ Tail.Splits r tail.labelText tail.messageText := by
  unfold Tail.read at h
  by_cases hblank : allBlank r = true
  · rw [if_pos hblank] at h
    cases h
    refine ⟨.inr ((isParted_of_allBlank hblank).imp id .inl), ?_⟩
    have hplain := Tail.Splits.plain (not_isLabelled_of_allBlank hblank)
    rw [afterMarks_of_allBlank hblank] at hplain
    exact hplain
  · rw [if_neg hblank] at h
    cases hlabelled : labelled? r with
    | none =>
      simp only [hlabelled] at h
      split at h
      · next hmode =>
        rw [oneLine_of_not_mem (not_mem_afterMarks hline)] at h
        cases h
        rw [Bool.or_eq_true] at hmode
        exact ⟨hmode.imp id fun hparted => .inr (.inl hparted),
          .plain (not_isLabelled_of_none hlabelled)⟩
      · cases h
    | some parts =>
      obtain ⟨label, rest⟩ := parts
      have hsplits := Tail.splits_of_labelled hlabelled
      have haccepts : Tail.Accepts glued r :=
        .inr (.inr (.inr (isLabelled_iff.2 ⟨label, rest, hlabelled⟩)))
      simp only [hlabelled] at h
      split at h
      · next hrest =>
        cases h
        rw [afterMarks_of_allBlank hrest] at hsplits
        exact ⟨haccepts, hsplits⟩
      · rw [oneLine_of_not_mem (not_mem_afterMarks (not_mem_of_labelled hlabelled hline))] at h
        cases h
        exact ⟨haccepts, hsplits⟩

/-- What may follow a kind in one line is read. -/
theorem Tail.isSome_read (hline : '\n' ∉ r) (h : Tail.Accepts glued r) :
    (Tail.read glued r).isSome = true := by
  unfold Tail.read
  by_cases hblank : allBlank r = true
  · rw [if_pos hblank]
    rfl
  · rw [if_neg hblank]
    cases hlabelled : labelled? r with
    | none =>
      have hmode : (glued || isParted r) = true := by
        rw [Bool.or_eq_true]
        rcases h with h | rfl | h | h
        · exact .inl h
        · exact absurd rfl hblank
        · exact .inr h
        · exact absurd h (not_isLabelled_of_none hlabelled)
      dsimp only
      rw [if_pos hmode, oneLine_of_not_mem (not_mem_afterMarks hline)]
      rfl
    | some parts =>
      obtain ⟨label, rest⟩ := parts
      dsimp only
      split
      · rfl
      · rw [oneLine_of_not_mem (not_mem_afterMarks (not_mem_of_labelled hlabelled hline))]
        rfl

theorem Tail.Splits.of_labelled {label rest label' message : Text}
    (h : labelled? r = some (label, rest)) (hsplits : Tail.Splits r label' message) :
    label' = trim label ∧ message = trim (afterMarks rest) := by
  cases hsplits with
  | labelled hlabel =>
    rw [labelled?_eq_some_iff.2 ⟨rfl, hlabel⟩] at h
    cases h
    exact ⟨rfl, rfl⟩
  | plain hplain => exact absurd (isLabelled_iff.2 ⟨label, rest, h⟩) hplain

/-- What follows a kind is split in one way only. -/
theorem Tail.Splits.unique {label label' message message' : Text}
    (h : Tail.Splits r label message) (h' : Tail.Splits r label' message') :
    label = label' ∧ message = message' := by
  cases h with
  | labelled hlabel =>
    obtain ⟨rfl, rfl⟩ := h'.of_labelled (labelled?_eq_some_iff.2 ⟨rfl, hlabel⟩)
    exact ⟨rfl, rfl⟩
  | plain hplain =>
    cases h' with
    | labelled => exact absurd ⟨_, rfl, by simp⟩ hplain
    | plain => exact ⟨rfl, rfl⟩

/-! ### Kinds -/

theorem mem_ordered : kind ∈ ordered kinds ↔ kind ∈ kinds ∧ kind ≠ [] := by
  rw [ordered, List.mem_mergeSort, List.mem_eraseDups, List.mem_filter, decide_eq_true_eq]

theorem triedBefore_iff {a b : Text} : triedBefore a b = true ↔
    b.length < a.length ∨ a.length = b.length ∧ notAfter a b = true := by
  rw [triedBefore, Bool.or_eq_true, Bool.and_eq_true, decide_eq_true_eq, beq_iff_eq]

theorem pairwise_triedBefore (kinds : List Text) :
    (ordered kinds).Pairwise fun a b => triedBefore a b = true := by
  apply List.pairwise_mergeSort
  · intro a b c hab hbc
    rw [triedBefore_iff] at hab hbc ⊢
    rcases hab with hab | ⟨hab, hnot⟩ <;> rcases hbc with hbc | ⟨hbc, hnot'⟩
    · exact .inl (by omega)
    · exact .inl (by omega)
    · exact .inl (by omega)
    · exact .inr ⟨by omega, notAfter_trans hnot hnot'⟩
  · intro a b
    rw [Bool.or_eq_true, triedBefore_iff, triedBefore_iff]
    rcases Nat.lt_trichotomy a.length b.length with hlt | heq | hlt
    · exact .inr (.inl hlt)
    · exact (notAfter_total a b).imp (fun h => .inr ⟨heq, h⟩) fun h => .inr ⟨heq.symm, h⟩
    · exact .inl (.inl hlt)

/-- The longer kinds are tried before the shorter ones. -/
theorem pairwise_ordered (kinds : List Text) :
    (ordered kinds).Pairwise fun a b => b.length ≤ a.length := by
  refine (pairwise_triedBefore kinds).imp ?_
  intro a b hab
  rw [triedBefore_iff] at hab
  omega

/-- A kind is read where it begins the line and what follows may follow it. -/
theorem isSome_read_iff (hline : '\n' ∉ t) :
    (if startsWith kind t then (Tail.read glued (t.drop kind.length)).map (Match.mk kind)
      else none).isSome = true ↔ ∃ r, t = kind ++ r ∧ Tail.Accepts glued r := by
  constructor
  · intro h
    split at h
    · next hstarts =>
      obtain ⟨r, rfl⟩ := List.isPrefixOf_iff_prefix.1 hstarts
      rw [List.drop_left, Option.isSome_map] at h
      obtain ⟨tail, htail⟩ := Option.isSome_iff_exists.1 h
      have hr : '\n' ∉ r := fun hmem => hline (List.mem_append_right _ hmem)
      exact ⟨r, rfl, (Tail.splits_of_read hr htail).1⟩
    · cases h
  · rintro ⟨r, rfl, haccepts⟩
    have hr : '\n' ∉ r := fun hmem => hline (List.mem_append_right _ hmem)
    have hstarts : startsWith kind (kind ++ r) = true :=
      List.isPrefixOf_iff_prefix.2 (List.prefix_append kind r)
    rw [if_pos hstarts, List.drop_left, Option.isSome_map]
    exact Tail.isSome_read hr haccepts

/-- One is found if there is one. -/
theorem isSome_first?_iff (hline : '\n' ∉ t) :
    (Match.first? (ordered kinds) glued t).isSome = true ↔
      ∃ kind, Match.Begins kinds glued t kind := by
  rw [Match.first?, List.findSome?_isSome_iff]
  refine exists_congr fun kind => ?_
  rw [isSome_read_iff hline, mem_ordered, and_assoc]
  rfl

/-- A kind that is found begins the line, and no longer one does. -/
theorem of_first? {m : Match} (hline : '\n' ∉ t)
    (h : Match.first? (ordered kinds) glued t = some m) :
    Match.Begins kinds glued t m.kind ∧
      (∀ other, Match.Begins kinds glued t other → other.length ≤ m.kind.length) ∧
      ∃ r, t = m.kind ++ r ∧ Tail.Splits r m.tail.labelText m.tail.messageText := by
  obtain ⟨before, kind, after, hordered, hfound, hnone⟩ := List.findSome?_eq_some_iff.1 h
  have hmem : kind ∈ ordered kinds := by
    rw [hordered]
    exact List.mem_append_right _ List.mem_cons_self
  have hbegins := (isSome_read_iff hline).1 (by rw [hfound]; rfl)
  split at hfound
  · next hstarts =>
    obtain ⟨r, rfl⟩ := List.isPrefixOf_iff_prefix.1 hstarts
    have hr : '\n' ∉ r := fun hmem => hline (List.mem_append_right _ hmem)
    rw [List.drop_left] at hfound
    obtain ⟨tail, htail, rfl⟩ := Option.map_eq_some_iff.1 hfound
    refine ⟨⟨(mem_ordered.1 hmem).1, (mem_ordered.1 hmem).2, hbegins⟩, ?_,
      r, rfl, (Tail.splits_of_read hr htail).2⟩
    rintro other ⟨hother, hne, hreads⟩
    have hpair := pairwise_ordered kinds
    have hin := mem_ordered.2 ⟨hother, hne⟩
    rw [hordered] at hpair hin
    rcases List.mem_append.1 hin with hin | hin
    · -- A kind that was tried before does not begin the line.
      have hsome := (isSome_read_iff hline).2 hreads
      rw [hnone other hin] at hsome
      cases hsome
    · rcases List.mem_cons.1 hin with rfl | hin
      · exact Nat.le_refl _
      · exact List.rel_of_pairwise_cons (List.pairwise_append.1 hpair).2.1 hin
  · cases hfound

/-! ### Lines -/

theorem exists_chosen (kinds : List Text) (glued : Bool) (s : Text) :
    ∃ t, Match.Chosen kinds glued s t := by
  by_cases h : ∃ t kind, s = '@' :: t ∧ Match.Begins kinds glued t kind
  · obtain ⟨t, kind, rfl, hbegins⟩ := h
    exact ⟨t, .behind hbegins⟩
  · exact ⟨s, .whole fun t kind hs hbegins => h ⟨t, kind, hs, hbegins⟩⟩

theorem Match.Chosen.unique (h : Match.Chosen kinds glued s t) (h' : Match.Chosen kinds glued s r) :
    t = r := by
  cases h with
  | behind hbegins =>
    cases h' with
    | behind => rfl
    | whole hnone => exact absurd hbegins (hnone _ _ rfl)
  | whole hnone =>
    cases h' with
    | behind hbegins => exact absurd hbegins (hnone _ _ rfl)
    | whole => rfl

theorem Match.Chosen.not_mem {c : Char} (h : Match.Chosen kinds glued s t) (hc : c ∉ s) :
    c ∉ t := by
  cases h with
  | behind => exact fun hmem => hc (List.mem_cons_of_mem _ hmem)
  | whole => exact hc

/-- What is read is what is found in the chosen line. -/
theorem read_of_chosen (hline : '\n' ∉ s) (h : Match.Chosen kinds glued s t) :
    Match.read (ordered kinds) glued s = Match.first? (ordered kinds) glued t := by
  cases h with
  | behind hbegins =>
    have hmem : '\n' ∉ t := fun hmem => hline (List.mem_cons_of_mem _ hmem)
    obtain ⟨m, hm⟩ := Option.isSome_iff_exists.1 ((isSome_first?_iff hmem).2 ⟨_, hbegins⟩)
    rw [Match.read, hm]
    rfl
  | whole hnone =>
    rcases s with _ | ⟨c, s⟩
    · rfl
    by_cases hc : c = '@'
    · subst hc
      have hmem : '\n' ∉ s := fun hmem => hline (List.mem_cons_of_mem _ hmem)
      have hbehind : Match.first? (ordered kinds) glued s = none := by
        rw [← Option.not_isSome_iff_eq_none, isSome_first?_iff hmem]
        rintro ⟨kind, hbegins⟩
        exact hnone s kind rfl hbegins
      rw [Match.read, hbehind, Option.none_or]
    · rw [Match.read]
      intro rest h
      exact hc (List.cons.inj h).1

/-- **What is read in a line** is settled by the line: it is read behind an at sign if a kind begins
what is there, and else as it is; the kind is the longest one that begins it; the label stands in
parentheses behind that, and the message behind the blanks and marks that come next. The expression
for a note finds the same. -/
theorem Match.read_grammar (kinds : List Text) (glued : Bool) {s : Text} (hline : '\n' ∉ s) :
    ((expression (ordered kinds) glued).captures s).map Fields.ofCaptures =
        (Match.read (ordered kinds) glued s).map Match.fields ∧
      ((Match.read (ordered kinds) glued s).isSome = true ↔
        ∃ t, Match.Chosen kinds glued s t ∧ ∃ kind, Match.Begins kinds glued t kind) ∧
      ∀ f : Fields, (Match.read (ordered kinds) glued s).map Match.fields = some f ↔
        ∃ t r, Match.Chosen kinds glued s t ∧ Match.Begins kinds glued t f.kind ∧
          (∀ other, Match.Begins kinds glued t other → other.length ≤ f.kind.length) ∧
          t = f.kind ++ r ∧ Tail.Splits r f.label f.message := by
  obtain ⟨t, hchosen⟩ := exists_chosen kinds glued s
  have hread := read_of_chosen hline hchosen
  have ht : '\n' ∉ t := hchosen.not_mem hline
  refine ⟨?_, ?_, ?_⟩
  · have hfields : Fields.ofCaptures ∘ Match.captures = Match.fields := funext fields_ofCaptures
    rw [captures_expression, Option.map_map, hfields]
  · rw [hread, isSome_first?_iff ht]
    constructor
    · intro hbegins
      exact ⟨t, hchosen, hbegins⟩
    · rintro ⟨u, hu, hbegins⟩
      rw [hchosen.unique hu]
      exact hbegins
  · intro f
    rw [hread]
    constructor
    · intro h
      obtain ⟨m, hm, rfl⟩ := Option.map_eq_some_iff.1 h
      obtain ⟨hbegins, hlongest, r, hr, hsplits⟩ := of_first? ht hm
      exact ⟨t, r, hchosen, hbegins, hlongest, hr, hsplits⟩
    · rintro ⟨u, r, hu, hbegins, hlongest, hr, hsplits⟩
      obtain rfl := hchosen.unique hu
      obtain ⟨m, hm⟩ := Option.isSome_iff_exists.1 ((isSome_first?_iff ht).2 ⟨_, hbegins⟩)
      obtain ⟨hbegins', hlongest', r', hr', hsplits'⟩ := of_first? ht hm
      -- Both kinds are the longest that begin the line.
      have hlength : m.kind.length = f.kind.length :=
        Nat.le_antisymm (hlongest _ hbegins') (hlongest' _ hbegins)
      obtain ⟨hkind, rfl⟩ := List.append_inj (hr'.symm.trans hr) hlength
      obtain ⟨hlabel, hmessage⟩ := hsplits'.unique hsplits
      rw [hm, Option.map_some, Match.fields, hkind, hlabel, hmessage]

/-- Of four kinds, two of which begin the line behind the at sign, the one is read that may be
followed by what follows it; the one with an at sign of its own is not. -/
theorem read_grammar_atSign :
    '\n' ∉ "@TODO(a): b".toList ∧
      (Match.read (ordered (["TO", "TODO", "TODOS", "@TODO"].map String.toList)) false
        "@TODO(a): b".toList).map Match.fields = some ⟨"TODO".toList, ['a'], ['b']⟩ := by
  have hline : '\n' ∉ "@TODO(a): b".toList := by decide
  have hbegins : Match.Begins (["TO", "TODO", "TODOS", "@TODO"].map String.toList) false
      "TODO(a): b".toList "TODO".toList :=
    ⟨by decide, by decide, "(a): b".toList, by decide,
      .inr (.inr (.inr ⟨"a): b".toList, by decide, by decide⟩))⟩
  have hsplits : Tail.Splits "(a): b".toList ['a'] ['b'] :=
    @Tail.Splits.labelled ['a'] ": b".toList (by decide)
  have hlongest : ∀ other ∈ ["TO", "TODO", "TODOS", "@TODO"].map String.toList,
      other <+: "TODO(a): b".toList → other.length ≤ "TODO".toList.length := by decide
  refine ⟨hline, ((Match.read_grammar _ false hline).2.2 ⟨"TODO".toList, ['a'], ['b']⟩).2
    ⟨_, _, .behind hbegins, hbegins, ?_, by decide, hsplits⟩⟩
  rintro other ⟨hmem, -, r, hr, -⟩
  exact hlongest other hmem ⟨r, hr.symm⟩

end SourceNotes.Note
