/-
The form of a note as an expression.

The form of a note can be told by one regular expression. What such an expression makes of a text
is found by trying: a run of characters is first taken as long as it goes and given back piece by
piece if the rest does not fit, and of several branches the first is taken with which all that
comes behind fits as well. Reading a note by its parts finds the same.

* **`Expression.first`** — the first way in which an expression and what comes behind it fit;
* **`expression`** — the form of a note;
* **`captures_expression`** — the parts of a text that it finds are those that **`Match.read`**
  finds, for every text and all kinds.
-/
import Mathlib.Data.List.TakeWhile
import SourceNotes.Note.Pattern

namespace SourceNotes.Note

open Text

/-- The parts of a note that are remembered. -/
inductive Group where
  | kind
  | label
  | labelWithMessage
  | labelMessage
  | message
  deriving DecidableEq, Repr

/-- What has been remembered, the last first. -/
abbrev Captures := List (Group × Text)

/-- Regular expressions with groups. -/
inductive Expression where
  /-- Fits nothing. -/
  | never
  | text (w : Text)
  /-- Characters in `p`, `least` or more. -/
  | run (p : Char → Bool) (least : Nat)
  | seq (a b : Expression)
  | or (a b : Expression)
  | group (g : Group) (a : Expression)
  /-- The end of the text, a last newline aside. -/
  | atEnd

variable {β : Type}

/-- A run of characters in `p` and what comes behind it: one character more if that works out,
and else the end of the run, once there have been enough. -/
def greedy (p : Char → Bool) (k : Text → Option β) : Nat → Text → Option β
  | 0, [] => k []
  | _ + 1, [] => none
  | 0, c :: s => if p c then (greedy p k 0 s).or (k (c :: s)) else k (c :: s)
  | least + 1, c :: s => if p c then greedy p k least s else none

/-- What comes of the first way in which an expression fits the start of a text and `k` fits what
comes behind. -/
def Expression.first : Expression → (Captures → Text → Option β) → Captures → Text → Option β
  | .never, _, _, _ => none
  | .text w, k, caps, s => if startsWith w s then k caps (s.drop w.length) else none
  | .run p least, k, caps, s => greedy p (k caps) least s
  | .seq a b, k, caps, s => a.first (fun caps s => b.first k caps s) caps s
  | .or a b, k, caps, s => (a.first k caps s).or (b.first k caps s)
  | .group g a, k, caps, s =>
    a.first (fun caps rest => k ((g, s.take (s.length - rest.length)) :: caps) rest) caps s
  | .atEnd, k, caps, s => if s = [] ∨ s = ['\n'] then k caps s else none

/-- What an expression remembers of a text that it fits. -/
def Expression.captures (a : Expression) (s : Text) : Option Captures :=
  a.first (fun caps _ => some caps) [] s

namespace Expression

/-- Any number of blanks. -/
def blanks : Expression := .run isBlank 0

/-- Any number of marks. -/
def marks : Expression := .run isMark 0

/-- What is left of a line. -/
def line : Expression := .run (· ≠ '\n') 0

/-- A label in parentheses. -/
def labelAs (g : Group) : Expression :=
  .seq (.text ['(']) (.seq (.group g (.run (· ≠ ')') 0)) (.text [')']))

/-- A message, perhaps behind blanks and marks. -/
def messageAs (g : Group) : Expression :=
  .seq blanks (.seq marks (.seq blanks (.group g line)))

/-- A message that blanks or marks part from what is before it. -/
def partedMessage : Expression :=
  .seq (.or (.seq blanks (.seq (.run isMark 1) blanks)) (.run isBlank 1)) (.group .message line)

/-- What follows the kind of a note. -/
def tail (glued : Bool) : Expression :=
  .seq (.or blanks (.or (.seq (labelAs .label) blanks)
    (.or (.seq (labelAs .labelWithMessage) (messageAs .labelMessage))
      (if glued then messageAs .message else partedMessage)))) .atEnd

/-- One of several kinds, the first ones first. -/
def oneOf (kinds : List Text) : Expression := kinds.foldr (fun w a => .or (.text w) a) .never

end Expression

/-- The form of a note. -/
def expression (kinds : List Text) (glued : Bool) : Expression :=
  .seq (.or (.text ['@']) (.text []))
    (.seq (.group .kind (.oneOf kinds)) (.tail glued))

/-- What the expression for a note remembers of its tail. -/
def Tail.captures : Tail → Captures
  | .bare => []
  | .labelled label => [(.label, label)]
  | .labelledMessage label message => [(.labelMessage, message), (.labelWithMessage, label)]
  | .plain message => [(.message, message)]

/-- What the expression for a note remembers of it. -/
def Match.captures (m : Match) : Captures := m.tail.captures ++ [(.kind, m.kind)]

/-! ### Runs -/

variable {p : Char → Bool} {k : Text → Option β} {s : Text}

/-- If no shorter run works out where the longest does not, the longest is taken. -/
theorem greedy_zero
    (hk : ∀ c s, p c = true → k (s.dropWhile p) = none → k (c :: s) = none) :
    greedy p k 0 s = k (s.dropWhile p) := by
  induction s with
  | nil => rfl
  | cons c s ih =>
    rw [greedy, List.dropWhile_cons]
    by_cases hc : p c = true
    · rw [if_pos hc, if_pos hc, ih]
      cases hrest : k (s.dropWhile p) with
      | none => exact hk c s hc hrest
      | some b => rfl
    · rw [if_neg hc, if_neg hc]

theorem greedy_succ (n : Nat) (c : Char) (s : Text) :
    greedy p k (n + 1) (c :: s) = if p c then greedy p k n s else none := by
  rw [greedy]

/-- What fits a text fits every end of it. -/
def Lasts (k : Text → Option β) : Prop := ∀ s t, k (s ++ t) ≠ none → k t ≠ none

theorem Lasts.eq_none (hk : Lasts k) {s t : Text} (h : k t = none) : k (s ++ t) = none := by
  by_contra hne
  exact hk s t hne h

theorem Lasts.greedy_zero (hk : Lasts k) (s : Text) : greedy p k 0 s = k (s.dropWhile p) := by
  refine Note.greedy_zero ?_
  intro c s hc hnone
  have hsplit : c :: s = (c :: s.takeWhile p) ++ s.dropWhile p := by
    rw [List.cons_append, List.takeWhile_append_dropWhile]
  rw [hsplit]
  exact hk.eq_none hnone

theorem exists_dropWhile_append (p : Char → Bool) (s t : Text) :
    ∃ u, (s ++ t).dropWhile p = u ++ t.dropWhile p := by
  induction s with
  | nil => exact ⟨[], rfl⟩
  | cons c s ih =>
    by_cases hc : p c = true
    · rw [List.cons_append, List.dropWhile_cons_of_pos hc]
      exact ih
    · rw [List.cons_append, List.dropWhile_cons_of_neg hc]
      refine ⟨c :: s ++ t.takeWhile p, ?_⟩
      rw [List.append_assoc, List.takeWhile_append_dropWhile, List.cons_append]

theorem Lasts.eq_none_of_dropWhile (hk : Lasts k) (h : k (s.dropWhile p) = none) : k s = none := by
  rw [← List.takeWhile_append_dropWhile (p := p) (l := s)]
  exact hk.eq_none h

/-- Nor is anything lost by taking a run away first. -/
theorem Lasts.dropWhile (hk : Lasts k) : Lasts fun s => k (s.dropWhile p) := by
  intro s t h
  obtain ⟨u, hu⟩ := exists_dropWhile_append p s t
  dsimp only at h ⊢
  rw [hu] at h
  exact hk u _ h

theorem take_sub_length_dropWhile (p : Char → Bool) (s : Text) :
    s.take (s.length - (s.dropWhile p).length) = s.takeWhile p := by
  have hlength := congrArg List.length (List.takeWhile_append_dropWhile (p := p) (l := s))
  rw [List.length_append] at hlength
  rw [← hlength, Nat.add_sub_cancel]
  exact (List.prefix_iff_eq_take.1 (List.takeWhile_prefix p)).symm

theorem not_of_dropWhile_eq {c : Char} {t : Text} (h : s.dropWhile p = c :: t) : p c = false := by
  have hhead := List.head?_dropWhile_not p s
  rw [h] at hhead
  exact hhead

/-! ### The parts of the expression for a note -/

section Parts

variable {caps : Captures} {g : Group}

/-- The end of a text, with what has been remembered. -/
def ended (caps : Captures) (s : Text) : Option Captures :=
  if s = [] ∨ s = ['\n'] then some caps else none

theorem eq_of_append {s t : Text} (h : s ++ t = [] ∨ s ++ t = ['\n']) : t = [] ∨ t = ['\n'] := by
  cases s with
  | nil => exact h
  | cons c s =>
    rcases h with h | h
    · cases h
    · exact .inl (List.append_eq_nil_iff.1 (List.cons.inj h).2).2

theorem lasts_ended (caps : Captures) : Lasts (ended caps) := by
  intro s t h
  unfold ended at h ⊢
  by_cases hst : s ++ t = [] ∨ s ++ t = ['\n']
  · rw [if_pos (eq_of_append hst)]
    exact Option.some_ne_none caps
  · exact absurd (if_neg hst) h

theorem lasts_oneLine (f : Text → β) : Lasts fun s => (oneLine s).map f := by
  intro s t h
  obtain ⟨u, hu⟩ := exists_dropWhile_append (· ≠ '\n') s t
  unfold oneLine at h ⊢
  dsimp only at h ⊢
  rw [hu] at h
  by_cases hst : u ++ t.dropWhile (· ≠ '\n') = [] ∨ u ++ t.dropWhile (· ≠ '\n') = ['\n']
  · rw [if_pos (eq_of_append hst)]
    exact Option.some_ne_none _
  · rw [if_neg hst] at h
    exact absurd rfl h

/-- A run of blanks at the end takes all there are. -/
theorem first_blanks :
    Expression.blanks.first ended caps s = if allBlank s then some caps else none := by
  have hrun : Expression.blanks.first ended caps s = ended caps (s.dropWhile isBlank) :=
    (lasts_ended caps).greedy_zero s
  have hnil : s.dropWhile isBlank = [] ↔ allBlank s = true := by
    rw [allBlank, List.dropWhile_eq_nil_iff, List.all_eq_true]
  -- A newline is a blank itself.
  have hnewline : s.dropWhile isBlank ≠ ['\n'] := by
    intro h
    exact absurd (not_of_dropWhile_eq h) (by decide)
  rw [hrun, ended]
  refine if_congr ?_ rfl rfl
  rw [or_iff_left hnewline, hnil]

/-- The rest of a line at the end is all there is, if that is one line. -/
theorem first_line :
    (Expression.group g .line).first ended caps s =
      (oneLine s).map fun text => (g, text) :: caps := by
  have hrun : (Expression.group g .line).first ended caps s =
      ended ((g, s.take (s.length - (s.dropWhile (· ≠ '\n')).length)) :: caps)
        (s.dropWhile (· ≠ '\n')) := by
    refine greedy_zero ?_
    intro c t hc hnone
    refine if_neg ?_
    rintro (h | h)
    · cases h
    · rw [(List.cons.inj h).1] at hc
      revert hc
      decide
  rw [hrun, take_sub_length_dropWhile, ended, oneLine]
  split <;> rfl

/-- A message at the end, behind all the blanks, marks and blanks there are. -/
theorem first_messageAs :
    (Expression.messageAs g).first ended caps s =
      (oneLine (afterMarks s)).map fun text => (g, text) :: caps := by
  have hlasts : Lasts fun s => (oneLine s).map fun text => (g, text) :: caps := lasts_oneLine _
  have hline : (fun s => (Expression.group g .line).first ended caps s) =
      fun s => (oneLine s).map fun text => (g, text) :: caps := funext fun s => first_line
  have hblanks : (fun s => (Expression.seq .blanks (.group g .line)).first ended caps s) =
      fun s => (oneLine (s.dropWhile isBlank)).map fun text => (g, text) :: caps := by
    funext s
    show greedy isBlank (fun s => (Expression.group g .line).first ended caps s) 0 s = _
    rw [hline, hlasts.greedy_zero]
  have hmarks : (fun s =>
        (Expression.seq .marks (.seq .blanks (.group g .line))).first ended caps s) =
      fun s => (oneLine ((s.dropWhile isMark).dropWhile isBlank)).map
        fun text => (g, text) :: caps := by
    funext s
    show greedy isMark (fun s => (Expression.seq .blanks (.group g .line)).first ended caps s) 0 s =
      _
    rw [hblanks, hlasts.dropWhile.greedy_zero]
  show greedy isBlank (fun s =>
    (Expression.seq .marks (.seq .blanks (.group g .line))).first ended caps s) 0 s = _
  rw [hmarks, hlasts.dropWhile.dropWhile.greedy_zero]
  rfl

/-- A single character is found at the start of a text, or it is not. -/
theorem first_singleton (c d : Char) (k : Captures → Text → Option β) :
    (Expression.text [c]).first k caps (d :: s) = if c = d then k caps s else none := by
  simp [Expression.first, startsWith, List.isPrefixOf]

theorem labelled?_of_ne {c : Char} {s : Text} (hc : c ≠ '(') : labelled? (c :: s) = none := by
  rw [labelled?]
  intro t h
  exact hc (List.cons.inj h).1

/-- A label is what stands in parentheses, if there are both of them. -/
theorem first_labelAs (k : Captures → Text → Option β) :
    (Expression.labelAs g).first k caps s =
      (labelled? s).bind fun parts => k ((g, parts.1) :: caps) parts.2 := by
  cases s with
  | nil => rfl
  | cons c s =>
    have hopen : (Expression.labelAs g).first k caps (c :: s) =
        if '(' = c then greedy (· ≠ ')') (fun rest => (Expression.text [')']).first k
          ((g, s.take (s.length - rest.length)) :: caps) rest) 0 s else none :=
      first_singleton '(' c _
    by_cases hc : '(' = c
    · subst hc
      rw [hopen, if_pos rfl, greedy_zero, take_sub_length_dropWhile, labelled?]
      · cases hrest : s.dropWhile (· ≠ ')') with
        | nil => rfl
        | cons d rest =>
          have hd : d = ')' := by simpa using not_of_dropWhile_eq hrest
          rw [first_singleton, if_pos hd.symm]
          rfl
      · intro d t hd hnone
        rw [first_singleton, if_neg]
        rintro rfl
        revert hd
        decide
    · rw [hopen, if_neg hc, labelled?_of_ne (Ne.symm hc)]
      rfl

theorem not_isMark_of_isBlank {c : Char} (h : isBlank c = true) : isMark c = false := by
  rw [Bool.eq_false_iff]
  intro hmark
  rw [isMark, Bool.or_eq_true, Bool.or_eq_true, beq_iff_eq, beq_iff_eq, beq_iff_eq] at hmark
  rcases hmark with (rfl | rfl) | rfl <;> revert h <;> decide

/-- A run of marks has at least one of them. -/
theorem greedy_marks {k : Text → Option β} (hk : Lasts k) (s : Text) :
    greedy isMark (greedy isBlank k 0) 1 s =
      if s.head?.any isMark then k ((s.dropWhile isMark).dropWhile isBlank) else none := by
  cases s with
  | nil => rfl
  | cons c s =>
    have hblanks : greedy isBlank k 0 = fun s => k (s.dropWhile isBlank) :=
      funext fun s => hk.greedy_zero s
    rw [greedy_succ, hblanks, hk.dropWhile.greedy_zero, List.head?_cons, Option.any_some]
    by_cases hc : isMark c = true
    · rw [if_pos hc, if_pos hc, List.dropWhile_cons_of_pos hc]
    · rw [if_neg hc, if_neg hc]

theorem afterMarks_of_not_mark (h : (trimStart s).head?.any isMark = false) :
    afterMarks s = trimStart s := by
  unfold afterMarks
  cases hs : trimStart s with
  | nil => rfl
  | cons c t =>
    rw [hs, List.head?_cons, Option.any_some] at h
    have hblank : isBlank c = false := not_of_dropWhile_eq hs
    rw [List.dropWhile_cons_of_neg (by rw [h]; exact Bool.false_ne_true), trimStart,
      List.dropWhile_cons_of_neg (by rw [hblank]; exact Bool.false_ne_true)]

/-- Of the two ways in which a message can be parted from what is before it, the second adds
nothing where there are marks. -/
theorem greedy_parted {k : Text → Option β} (hk : Lasts k) (s : Text) :
    (greedy isBlank (greedy isMark (greedy isBlank k 0) 1) 0 s).or (greedy isBlank k 1 s) =
      if isParted s then k (afterMarks s) else none := by
  have hmarks : greedy isBlank (greedy isMark (greedy isBlank k 0) 1) 0 s =
      if (trimStart s).head?.any isMark then k (afterMarks s) else none := by
    -- A mark is no blank, so that the blanks before the marks are all there are.
    rw [greedy_zero, greedy_marks hk]
    · rfl
    · intro c s hc hnone
      rw [greedy_marks hk, List.head?_cons, Option.any_some, not_isMark_of_isBlank hc]
      rfl
  rw [hmarks]
  cases s with
  | nil => rfl
  | cons c s =>
    rw [greedy_succ, hk.greedy_zero]
    by_cases hc : isBlank c = true
    · have htrim : trimStart (c :: s) = trimStart s := List.dropWhile_cons_of_pos hc
      have hparted : isParted (c :: s) = true := by rw [isParted, hc, Bool.true_or]
      rw [if_pos hc, if_pos hparted]
      cases hmark : (trimStart (c :: s)).head?.any isMark with
      | true =>
        rw [if_pos rfl]
        cases hrest : k (afterMarks (c :: s)) with
        | some b => rfl
        | none =>
          have hblanks : k ((trimStart (c :: s)).dropWhile isMark) = none :=
            hk.eq_none_of_dropWhile hrest
          have hall : k (trimStart (c :: s)) = none := hk.eq_none_of_dropWhile hblanks
          rw [htrim] at hall
          exact hall
      | false =>
        rw [if_neg Bool.false_ne_true, afterMarks_of_not_mark hmark, htrim]
        rfl
    · have htrim : trimStart (c :: s) = c :: s := List.dropWhile_cons_of_neg hc
      have hparted : isParted (c :: s) = isMark c := by
        rw [isParted, Bool.eq_false_iff.2 hc, Bool.false_or]
      rw [if_neg hc, hparted, htrim, List.head?_cons, Option.any_some, Option.or_none]

/-- A message behind a blank or a mark, and behind all the blanks, marks and blanks there are. -/
theorem first_partedMessage :
    Expression.partedMessage.first ended caps s =
      if isParted s then (oneLine (afterMarks s)).map fun text => (.message, text) :: caps
      else none := by
  have hlasts : Lasts fun s => (oneLine s).map fun text => ((.message, text) :: caps : Captures) :=
    lasts_oneLine _
  have hline : (fun s => (Expression.group .message .line).first ended caps s) =
      fun s => (oneLine s).map fun text => (.message, text) :: caps := funext fun s => first_line
  have hbranches : Expression.partedMessage.first ended caps s =
      (greedy isBlank (greedy isMark (greedy isBlank
          (fun s => (Expression.group .message .line).first ended caps s) 0) 1) 0 s).or
        (greedy isBlank (fun s => (Expression.group .message .line).first ended caps s) 1 s) := rfl
  rw [hbranches, hline, greedy_parted hlasts]

end Parts

/-! ### The whole expression -/

variable {caps : Captures}

/-- A label is what stands between a parenthesis at the start and the first closing one. -/
theorem labelled?_eq_some_iff {s label rest : Text} :
    labelled? s = some (label, rest) ↔ s = '(' :: (label ++ ')' :: rest) ∧ ')' ∉ label := by
  constructor
  · intro h
    rcases s with _ | ⟨c, s⟩
    · cases h
    by_cases hc : c = '('
    · subst hc
      have hsplit := List.takeWhile_append_dropWhile (p := (· ≠ ')')) (l := s)
      rw [labelled?] at h
      cases hrest : s.dropWhile (· ≠ ')') with
      | nil =>
        rw [hrest] at h
        cases h
      | cons d t =>
        have hd : d = ')' := by simpa using not_of_dropWhile_eq hrest
        rw [hrest] at h hsplit
        cases h
        refine ⟨?_, fun hmem => ?_⟩
        · rw [← hd] at hsplit ⊢
          rw [hsplit]
        · exact absurd (List.mem_takeWhile_imp hmem) (by decide)
    · rw [labelled?_of_ne hc] at h
      cases h
  · rintro ⟨rfl, hlabel⟩
    have hin : ∀ c ∈ label, decide (c ≠ ')') = true := by
      intro c hc
      refine decide_eq_true ?_
      rintro rfl
      exact hlabel hc
    rw [labelled?, List.dropWhile_append_of_pos hin, List.takeWhile_append_of_pos hin,
      List.dropWhile_cons_of_neg (by decide), List.takeWhile_cons_of_neg (by decide),
      List.append_nil]

/-- Where a message behind a label is not one line, neither is all that follows the kind. -/
theorem oneLine_eq_none_of_labelled {s label rest : Text} (h : labelled? s = some (label, rest))
    (hrest : oneLine (afterMarks rest) = none) : oneLine (afterMarks s) = none := by
  have hlasts : Lasts fun s => (oneLine s).map id := lasts_oneLine id
  simp only [Option.map_id_fun, id_eq] at hlasts
  have hall : oneLine rest = none := by
    have hblanks : oneLine ((trimStart rest).dropWhile isMark) = none :=
      hlasts.eq_none_of_dropWhile hrest
    have hmarks : oneLine (trimStart rest) = none := hlasts.eq_none_of_dropWhile hblanks
    exact hlasts.eq_none_of_dropWhile hmarks
  obtain ⟨rfl, -⟩ := labelled?_eq_some_iff.1 h
  -- A parenthesis is neither a blank nor a mark.
  show oneLine ('(' :: (label ++ ')' :: rest)) = none
  have hsplit : '(' :: (label ++ ')' :: rest) = ('(' :: (label ++ [')'])) ++ rest := by simp
  rw [hsplit]
  exact hlasts.eq_none hall

/-- What follows the kind is read by its parts as the expression finds it. -/
theorem first_tail (glued : Bool) (caps : Captures) (s : Text) :
    (Expression.tail glued).first (fun caps _ => some caps) caps s =
      (Tail.read glued s).map fun t => t.captures ++ caps := by
  have hplain : (if glued then Expression.messageAs .message else .partedMessage).first ended caps
      s = if glued || isParted s then
        (oneLine (afterMarks s)).map fun text => (.message, text) :: caps else none := by
    cases glued with
    | true => exact first_messageAs
    | false => exact first_partedMessage
  have hbranches : (Expression.tail glued).first (fun caps _ => some caps) caps s =
      (Expression.blanks.first ended caps s).or
        (((Expression.labelAs .label).first (Expression.blanks.first ended) caps s).or
          (((Expression.labelAs .labelWithMessage).first
              ((Expression.messageAs .labelMessage).first ended) caps s).or
            ((if glued then Expression.messageAs .message else .partedMessage).first ended caps
              s))) := rfl
  rw [hbranches, first_blanks, first_labelAs, first_labelAs, hplain, Tail.read]
  by_cases hblank : allBlank s = true
  · rw [if_pos hblank, if_pos hblank]
    rfl
  · rw [if_neg hblank, if_neg hblank, Option.none_or]
    cases hlabelled : labelled? s with
    | none =>
      rw [Option.bind_none, Option.bind_none, Option.none_or, Option.none_or]
      dsimp only
      split
      · rw [Option.map_map]
        rfl
      · rfl
    | some parts =>
      obtain ⟨label, rest⟩ := parts
      rw [Option.bind_some, Option.bind_some, first_blanks, first_messageAs]
      dsimp only
      by_cases hrest : allBlank rest = true
      · rw [if_pos hrest, if_pos hrest]
        rfl
      · rw [if_neg hrest, if_neg hrest, Option.none_or]
        cases hmessage : oneLine (afterMarks rest) with
        | some message => rfl
        | none =>
          rw [oneLine_eq_none_of_labelled hlabelled hmessage]
          split <;> rfl

/-- Of several kinds the first is taken with which all that comes behind fits as well. -/
theorem first_oneOf (kinds : List Text) (k : Captures → Text → Option β) (s : Text) :
    (Expression.oneOf kinds).first k caps s =
      kinds.findSome? fun kind =>
        if startsWith kind s then k caps (s.drop kind.length) else none := by
  induction kinds with
  | nil => rfl
  | cons kind kinds ih =>
    have hor : (Expression.oneOf (kind :: kinds)).first k caps s =
        (if startsWith kind s then k caps (s.drop kind.length) else none).or
          ((Expression.oneOf kinds).first k caps s) := rfl
    rw [hor, ih, List.findSome?_cons]
    cases (if startsWith kind s then k caps (s.drop kind.length) else none) <;> rfl

theorem take_sub_length_drop {kind s : Text} (h : startsWith kind s = true) :
    s.take (s.length - (s.drop kind.length).length) = kind := by
  obtain ⟨t, rfl⟩ := List.isPrefixOf_iff_prefix.1 h
  simp

/-- Behind the at sign, or without one. -/
theorem first_kind (kinds : List Text) (glued : Bool) (s : Text) :
    (Expression.seq (.group .kind (.oneOf kinds)) (.tail glued)).first (fun caps _ => some caps)
        [] s = (Match.first? kinds glued s).map Match.captures := by
  have hgroup : (Expression.seq (.group .kind (.oneOf kinds)) (.tail glued)).first
      (fun caps _ => some caps) [] s = (Expression.oneOf kinds).first (fun caps rest =>
        (Expression.tail glued).first (fun caps _ => some caps)
          ((.kind, s.take (s.length - rest.length)) :: caps) rest) [] s := rfl
  rw [hgroup, first_oneOf, Match.first?, List.map_findSome?]
  congr 1
  funext kind
  rw [Function.comp_apply]
  by_cases hkind : startsWith kind s = true
  · rw [if_pos hkind, if_pos hkind, first_tail, take_sub_length_drop hkind, Option.map_map]
    rfl
  · rw [if_neg hkind, if_neg hkind]
    rfl

/-- **The form of a note**, told as an expression: what it remembers of a text are the parts that
reading finds. -/
theorem captures_expression (kinds : List Text) (glued : Bool) (s : Text) :
    (expression kinds glued).captures s = (Match.read kinds glued s).map Match.captures := by
  have hbranches : (expression kinds glued).captures s =
      ((Expression.text ['@']).first (fun caps rest =>
          (Expression.seq (.group .kind (.oneOf kinds)) (.tail glued)).first
            (fun caps _ => some caps) caps rest) [] s).or
        ((Expression.seq (.group .kind (.oneOf kinds)) (.tail glued)).first
          (fun caps _ => some caps) [] s) := rfl
  rw [hbranches, first_kind]
  cases s with
  | nil => rfl
  | cons c s =>
    rw [first_singleton]
    by_cases hc : '@' = c
    · subst hc
      rw [if_pos rfl, first_kind, Match.read, Option.map_or]
    · rw [if_neg hc, Match.read]
      · rfl
      · rintro rest h
        exact hc (List.cons.inj h).1.symm

end SourceNotes.Note
