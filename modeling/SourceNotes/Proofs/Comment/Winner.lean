/-
What begins at a place in code.

A place in a text is given by what is before it and what is after it. Of the rules
whose start delimiter stands at the place with an open gate, those with the
longest start count; a block comment wins over the others, and a line comment and a
string that begin alike are left for what follows to decide.

* **`BlockRule.openAfter`** — the gate, by the last line of what is before;
* **`Rules.standing`**, **`Rules.winnerAt`** — the rules that stand at a place, and
  what wins there;
* **`foldl_find_eq_winnerAt`** — going through the rules one by one, as a scan does,
  leads to the winner.
-/
import SourceNotes.Comment.Segment

namespace SourceNotes

open Text

/-- What begins somewhere has a start. -/
theorem Opening.start_ne_nil (o : Opening) : o.start ≠ [] := by
  cases o with
  | line rule => exact rule.start_ne_nil
  | string rule => exact rule.start_ne_nil
  | block rule => exact rule.start_ne_nil
  | lineOrString rule _ => exact rule.start_ne_nil

/-- Only blanks precede a place on its line if the last line before it is blank. -/
theorem lineStartAfter_eq (s : Text) : Head.lineStartAfter true s = allBlank (lastLine s) := by
  induction s using concatInduction with
  | nil => rfl
  | concat s c ih =>
    rw [Head.lineStartAfter, List.foldl_append, lastLine_concat]
    change (if c = '\n' then true else Head.lineStartAfter true s && isBlank c) = _
    split
    · rfl
    · rw [ih]
      simp [allBlank]

/-- Whether the delimiters of a block comment count after the text `before`. -/
def BlockRule.openAfter (rule : BlockRule) (before : Text) : Bool :=
  (!rule.atFirstColumn || (lastLine before).isEmpty) &&
    (!rule.atLineStart || allBlank (lastLine before))

namespace Rules

/-- The rules whose start stands between `before` and `after` with an open gate. -/
def standing (rules : Rules) (before after : Text) : Rules where
  lines := rules.lines.filter fun r => startsWith r.start after
  strings := rules.strings.filter fun r => startsWith r.start after
  blocks := rules.blocks.filter fun r => r.openAfter before && startsWith r.start after

/-- The greatest size in a list, 0 if it is empty. -/
def greatest {α : Type} (size : α → Nat) (l : List α) : Nat := (l.map size).foldr max 0

/-- The length of the longest start of a rule. -/
def longest (rules : Rules) : Nat :=
  max (greatest (·.start.length) rules.lines)
    (max (greatest (·.start.length) rules.strings) (greatest (·.start.length) rules.blocks))

/-- Of the rules with the longest start the first block comment, else the first line
comment and the first string together, else the one of them there is. -/
def winner (rules : Rules) : Option Opening :=
  match rules.blocks.find? (·.start.length = rules.longest),
    rules.lines.find? (·.start.length = rules.longest),
    rules.strings.find? (·.start.length = rules.longest) with
  | some block, _, _ => some (.block block)
  | none, some line, some string => some (.lineOrString line string)
  | none, some line, none => some (.line line)
  | none, none, some string => some (.string string)
  | none, none, none => none

/-- What wins between `before` and `after`. -/
def winnerAt (rules : Rules) (before after : Text) : Option Opening :=
  (rules.standing before after).winner

/-! ### The greatest size -/

section greatest

variable {α : Type} (size : α → Nat)

@[simp] theorem greatest_nil : greatest size [] = 0 := rfl

theorem greatest_concat (l : List α) (a : α) :
    greatest size (l ++ [a]) = max (greatest size l) (size a) := by
  induction l with
  | nil => simp [greatest]
  | cons b l ih =>
    simp only [greatest, List.cons_append, List.map_cons, List.foldr_cons] at ih ⊢
    omega

theorem le_greatest {l : List α} {a : α} (h : a ∈ l) : size a ≤ greatest size l := by
  induction l with
  | nil => cases h
  | cons b l ih =>
    simp only [greatest, List.map_cons, List.foldr_cons] at ih ⊢
    rcases List.mem_cons.1 h with rfl | h
    · omega
    · have := ih h
      omega

theorem find?_of_greatest_lt {l : List α} {n : Nat} (h : greatest size l < n) :
    l.find? (size · = n) = none := by
  refine List.find?_eq_none.2 fun a ha hn => ?_
  have := le_greatest size ha
  simp only [decide_eq_true_eq] at hn
  omega

theorem find?_concat (l : List α) (a : α) (n : Nat) :
    (l ++ [a]).find? (size · = n) =
      (l.find? (size · = n)).or (if size a = n then some a else none) := by
  rw [List.find?_append, List.find?_singleton]
  simp only [decide_eq_true_eq]

/-- The greatest size is that of a member, if it is not 0. -/
theorem greatest_ne {l : List α} {n : Nat} (hn : 0 < n) (h : l.find? (size · = n) = none) :
    greatest size l ≠ n := by
  induction l with
  | nil => exact Nat.ne_of_lt hn
  | cons b l ih =>
    have hcons : greatest size (b :: l) = max (size b) (greatest size l) := rfl
    rw [List.find?_eq_none, List.forall_mem_cons, ← List.find?_eq_none] at h
    have hb : size b ≠ n := by simpa using h.1
    have hl := ih h.2
    omega

end greatest

/-! ### The winner -/

/-- The winner has the longest start. -/
theorem size_winner (rules : Rules) : Opening.size rules.winner = rules.longest := by
  have hsize {α : Type} (size : α → Nat) {l : List α} {a : α} {n : Nat}
      (h : l.find? (size · = n) = some a) : size a = n := by simpa using List.find?_some h
  unfold winner
  split
  · next block hb => exact hsize (fun r : BlockRule => r.start.length) hb
  · next line string hb hl hs => exact hsize (fun r : LineRule => r.start.length) hl
  · next line hb hl hs => exact hsize (fun r : LineRule => r.start.length) hl
  · next string hb hl hs => exact hsize (fun r : StringRule => r.start.length) hs
  · next hb hl hs =>
    -- A longest start that is not empty belongs to some rule.
    rcases Nat.eq_zero_or_pos rules.longest with hzero | hpos
    · exact hzero.symm
    · have := greatest_ne _ hpos hb
      have := greatest_ne _ hpos hl
      have := greatest_ne _ hpos hs
      simp only [longest] at *
      omega

/-- One more line comment wins if it is longer than all before it. -/
theorem winner_concat_line (ls : List LineRule) (rule : LineRule) :
    winner { lines := ls ++ [rule] } =
      if rule.start.length ≤ longest { lines := ls } then winner { lines := ls }
      else some (.line rule) := by
  have hpos := List.length_pos_iff.2 rule.start_ne_nil
  have hold : longest { lines := ls } = greatest (·.start.length) ls := by simp [longest]
  have hnew : longest { lines := ls ++ [rule] } =
      max (greatest (·.start.length) ls) rule.start.length := by simp [longest, greatest_concat]
  simp only [winner, hold, hnew, List.find?_nil, find?_concat]
  by_cases hle : rule.start.length ≤ greatest (·.start.length) ls
  · -- The first longest among the lines before it is there, as `rule` is not empty.
    rw [if_pos hle, Nat.max_eq_left hle]
    cases hfind : ls.find? (·.start.length = greatest (·.start.length) ls) with
    | some line => rfl
    | none => exact absurd rfl (greatest_ne _ (Nat.lt_of_lt_of_le hpos hle) hfind)
  · rw [if_neg hle, Nat.max_eq_right (by omega), find?_of_greatest_lt _ (by omega)]
    simp

/-- One more string wins if it is longer than all before it, and joins a line comment that
is as long. -/
theorem winner_concat_string (ls : List LineRule) (ss : List StringRule) (rule : StringRule) :
    winner { lines := ls, strings := ss ++ [rule] } =
      if rule.start.length < longest { lines := ls, strings := ss } then
        winner { lines := ls, strings := ss }
      else if longest { lines := ls, strings := ss } < rule.start.length then
        some (.string rule)
      else
        match winner { lines := ls, strings := ss } with
        | some (.line line) => some (.lineOrString line rule)
        | _ => winner { lines := ls, strings := ss } := by
  have hpos := List.length_pos_iff.2 rule.start_ne_nil
  generalize hn : longest { lines := ls, strings := ss } = n
  have hold : max (greatest (·.start.length) ls) (greatest (·.start.length) ss) = n := by
    rw [← hn]; simp [longest]
  have hnew : longest { lines := ls, strings := ss ++ [rule] } = max n rule.start.length := by
    rw [← hold]; simp [longest, greatest_concat, Nat.max_assoc]
  simp only [winner, hn, hnew, List.find?_nil, find?_concat]
  rcases Nat.lt_trichotomy rule.start.length n with hlt | heq | hgt
  · rw [if_pos hlt, Nat.max_eq_left (Nat.le_of_lt hlt), if_neg (Nat.ne_of_lt hlt), Option.or_none]
  · -- As long as the longest: it counts if no string before it does.
    rw [Nat.max_eq_left (Nat.le_of_eq heq), if_pos heq, if_neg (by omega), if_neg (by omega)]
    cases hl : ls.find? (·.start.length = n) with
    | some line => cases ss.find? (·.start.length = n) <;> rfl
    | none =>
      cases hs : ss.find? (·.start.length = n) with
      | some string => rfl
      | none =>
        have := greatest_ne _ (by omega) hl
        have := greatest_ne _ (by omega) hs
        omega
  · -- Longer than all before it, so that none of them is found any more.
    have hl := find?_of_greatest_lt (fun r : LineRule => r.start.length) (l := ls)
      (n := rule.start.length) (by omega)
    have hs := find?_of_greatest_lt (fun r : StringRule => r.start.length) (l := ss)
      (n := rule.start.length) (by omega)
    rw [Nat.max_eq_right (by omega), hl, hs, if_pos rfl, if_neg (by omega), if_pos hgt]
    rfl

theorem beatenBy_of_lt {rule : BlockRule} {found : Option Opening}
    (h : rule.start.length < Opening.size found) : rule.beatenBy found = true := by
  unfold BlockRule.beatenBy
  split
  · exact decide_eq_true (Nat.le_of_lt h)
  · exact decide_eq_true h

theorem not_beatenBy_of_gt {rule : BlockRule} {found : Option Opening}
    (h : Opening.size found < rule.start.length) : rule.beatenBy found = false := by
  unfold BlockRule.beatenBy
  split
  · exact decide_eq_false (Nat.not_le.2 h)
  · exact decide_eq_false (Nat.lt_asymm h)

/-- One more block comment wins unless something before it beats it. -/
theorem winner_concat_block (ls : List LineRule) (ss : List StringRule) (bs : List BlockRule)
    (rule : BlockRule) :
    winner { lines := ls, strings := ss, blocks := bs ++ [rule] } =
      if rule.beatenBy (winner { lines := ls, strings := ss, blocks := bs }) then
        winner { lines := ls, strings := ss, blocks := bs }
      else some (.block rule) := by
  have hsize := size_winner { lines := ls, strings := ss, blocks := bs }
  generalize hn : longest { lines := ls, strings := ss, blocks := bs } = n at hsize
  have hold : max (greatest (·.start.length) ls)
      (max (greatest (·.start.length) ss) (greatest (·.start.length) bs)) = n := hn
  have hnew : longest { lines := ls, strings := ss, blocks := bs ++ [rule] } =
      max n rule.start.length := by
    rw [← hold]; simp [longest, greatest_concat, Nat.max_assoc]
  rcases Nat.lt_trichotomy rule.start.length n with hlt | heq | hgt
  · rw [if_pos (beatenBy_of_lt (by omega))]
    simp only [winner, hn, hnew, find?_concat]
    rw [Nat.max_eq_left (Nat.le_of_lt hlt), if_neg (Nat.ne_of_lt hlt), Option.or_none]
  · simp only [winner, hn, hnew, find?_concat] at hsize ⊢
    rw [Nat.max_eq_left (Nat.le_of_eq heq), if_pos heq]
    cases hb : bs.find? (·.start.length = n) with
    | some block =>
      have hblock : block.start.length = n := by simpa using List.find?_some hb
      simp [BlockRule.beatenBy, hblock, heq]
    | none =>
      -- Nothing but a block comment as long would beat it.
      have hbeaten (found : Option Opening) (hfound : ∀ b, found ≠ some (.block b))
          (hfs : Opening.size found = n) : rule.beatenBy found = false := by
        unfold BlockRule.beatenBy
        split
        · exact absurd rfl (hfound _)
        · exact decide_eq_false (by omega)
      rw [hb] at hsize
      rw [hbeaten _ ?_ hsize]
      · rfl
      · intro b
        split <;> simp_all
  · rw [if_neg (by rw [not_beatenBy_of_gt (by omega)]; exact Bool.false_ne_true)]
    simp only [winner, hnew, find?_concat]
    rw [Nat.max_eq_right (by omega), find?_of_greatest_lt _ (by omega)]
    simp

end Rules

/-! ### What stands at a place -/

/-- The opening is made of these rules. -/
def Opening.IsOf (rules : Rules) : Opening → Prop
  | .line rule => rule ∈ rules.lines
  | .string rule => rule ∈ rules.strings
  | .block rule => rule ∈ rules.blocks
  | .lineOrString rule literal => rule ∈ rules.lines ∧ literal ∈ rules.strings

variable {rules : Rules} {before after before' after' : Text} {o : Opening}

theorem Opening.isOf_of_winner (h : rules.winner = some o) : o.IsOf rules := by
  have hmem {γ : Type} {q : γ → Bool} {l : List γ} {a : γ} (h : l.find? q = some a) : a ∈ l :=
    List.mem_of_find?_eq_some h
  unfold Rules.winner at h
  split at h
  · next block hb => cases h; exact hmem hb
  · next line string hb hl hs => cases h; exact ⟨hmem hl, hmem hs⟩
  · next line hb hl hs => cases h; exact hmem hl
  · next string hb hl hs => cases h; exact hmem hs
  · cases h

theorem Opening.isOf_of_winnerAt (h : rules.winnerAt before after = some o) : o.IsOf rules := by
  have hstanding : o.IsOf (rules.standing before after) := isOf_of_winner h
  cases o with
  | line rule => exact (List.mem_filter.1 hstanding).1
  | string rule => exact (List.mem_filter.1 hstanding).1
  | block rule => exact (List.mem_filter.1 hstanding).1
  | lineOrString rule literal =>
    exact ⟨(List.mem_filter.1 hstanding.1).1, (List.mem_filter.1 hstanding.2).1⟩

/-- What wins at a place stands there. -/
theorem Rules.startsWith_of_winnerAt (h : rules.winnerAt before after = some o) :
    startsWith o.start after = true := by
  have hstanding : o.IsOf (rules.standing before after) := Opening.isOf_of_winner h
  cases o with
  | line rule => exact (List.mem_filter.1 hstanding).2
  | string rule => exact (List.mem_filter.1 hstanding).2
  | block rule => exact (Bool.and_eq_true_iff.1 (List.mem_filter.1 hstanding).2).2
  | lineOrString rule literal => exact (List.mem_filter.1 hstanding.1).2

theorem BlockRule.openAfter_of_winnerAt {rule : BlockRule}
    (h : rules.winnerAt before after = some (.block rule)) : rule.openAfter before = true := by
  have hstanding : rule ∈ (rules.standing before after).blocks := Opening.isOf_of_winner h
  exact (Bool.and_eq_true_iff.1 (List.mem_filter.1 hstanding).2).1

theorem Rules.winnerAt_nil (rules : Rules) (before : Text) : rules.winnerAt before [] = none := by
  cases h : rules.winnerAt before [] with
  | none => rfl
  | some o =>
    have hnil := List.prefix_nil.1 (List.isPrefixOf_iff_prefix.1 (startsWith_of_winnerAt h))
    exact absurd hnil o.start_ne_nil

/-- The same rules stand at two places, and so the same wins. -/
theorem winnerAt_congr
    (hlines : ∀ r ∈ rules.lines, startsWith r.start after = startsWith r.start after')
    (hblocks : ∀ r ∈ rules.blocks, (r.openAfter before && startsWith r.start after) =
      (r.openAfter before' && startsWith r.start after'))
    (hstrings : ∀ r ∈ rules.strings, startsWith r.start after = startsWith r.start after') :
    rules.winnerAt before after = rules.winnerAt before' after' := by
  have hstanding : rules.standing before after = rules.standing before' after' := by
    unfold Rules.standing
    congr 1
    · exact List.filter_congr hlines
    · exact List.filter_congr hblocks
    · exact List.filter_congr hstrings
  rw [Rules.winnerAt, Rules.winnerAt, hstanding]

/-! ### Going through the rules -/

/-- One more line comment is looked at. -/
def findLine (after : Text) (found : Option Opening) (rule : LineRule) : Option Opening :=
  if rule.start.length ≤ Opening.size found then found
  else if startsWith rule.start after then some (.line rule) else found

/-- One more string is looked at. -/
def findString (after : Text) (found : Option Opening) (rule : StringRule) : Option Opening :=
  if rule.start.length < Opening.size found then found
  else if startsWith rule.start after then
    if Opening.size found < rule.start.length then some (.string rule)
    else
      match found with
      | some (.line line) => some (.lineOrString line rule)
      | _ => found
  else found

/-- One more block comment is looked at. -/
def findBlock (before after : Text) (found : Option Opening) (rule : BlockRule) :
    Option Opening :=
  if rule.beatenBy found then found
  else if rule.openAfter before then
    if startsWith rule.start after then some (.block rule) else found
  else found

section

variable {before after : Text}

theorem findLine_winnerAt (ls : List LineRule) (rule : LineRule) :
    findLine after (Rules.winnerAt { lines := ls } before after) rule =
      Rules.winnerAt { lines := ls ++ [rule] } before after := by
  simp only [findLine, Rules.winnerAt, Rules.size_winner, Rules.standing, List.filter_nil,
    List.filter_append, List.filter_cons]
  by_cases hstands : startsWith rule.start after = true
  · simp only [hstands, if_true]
    rw [Rules.winner_concat_line]
  · simp only [hstands, Bool.false_eq_true, if_false]
    rw [List.append_nil]
    split <;> rfl

theorem findString_winnerAt (ls : List LineRule) (ss : List StringRule) (rule : StringRule) :
    findString after (Rules.winnerAt { lines := ls, strings := ss } before after) rule =
      Rules.winnerAt { lines := ls, strings := ss ++ [rule] } before after := by
  simp only [findString, Rules.winnerAt, Rules.size_winner, Rules.standing, List.filter_nil,
    List.filter_append, List.filter_cons]
  by_cases hstands : startsWith rule.start after = true
  · simp only [hstands, if_true]
    rw [Rules.winner_concat_string]
  · simp only [hstands, Bool.false_eq_true, if_false]
    rw [List.append_nil]
    split <;> rfl

theorem findBlock_winnerAt (ls : List LineRule) (ss : List StringRule) (bs : List BlockRule)
    (rule : BlockRule) :
    findBlock before after
        (Rules.winnerAt { lines := ls, strings := ss, blocks := bs } before after) rule =
      Rules.winnerAt { lines := ls, strings := ss, blocks := bs ++ [rule] } before after := by
  simp only [findBlock, Rules.winnerAt, Rules.standing, List.filter_nil, List.filter_append,
    List.filter_cons]
  by_cases hopen : rule.openAfter before = true
  · by_cases hstands : startsWith rule.start after = true
    · simp only [hopen, hstands, Bool.and_self, if_true]
      rw [Rules.winner_concat_block]
    · simp only [hopen, hstands, Bool.and_false, Bool.false_eq_true, if_false]
      rw [List.append_nil]
      split <;> rfl
  · simp only [hopen, Bool.false_and, Bool.false_eq_true, if_false]
    rw [List.append_nil]
    split <;> rfl

/-- Going on through a list from what its beginning leads to. -/
theorem foldl_concat {α β : Type} {f : β → α → β} {g : List α → β}
    (h : ∀ l a, f (g l) a = g (l ++ [a])) (l m : List α) : m.foldl f (g l) = g (l ++ m) := by
  induction m generalizing l with
  | nil => rw [List.append_nil]; rfl
  | cons a m ih => rw [List.foldl_cons, h, ih, List.append_assoc]; rfl

/-- A scan that goes through the line comments, the strings and the block comments finds the
winner. -/
theorem foldl_find_eq_winnerAt (rules : Rules) (before after : Text) :
    rules.blocks.foldl (findBlock before after)
        (rules.strings.foldl (findString after) (rules.lines.foldl (findLine after) none)) =
      rules.winnerAt before after := by
  -- At each point of the way the rule found is the winner among those gone through.
  have hlines : rules.lines.foldl (findLine after) none =
      Rules.winnerAt { lines := rules.lines } before after :=
    foldl_concat (g := fun ls => Rules.winnerAt { lines := ls } before after)
      findLine_winnerAt [] rules.lines
  have hstrings : rules.strings.foldl (findString after)
      (Rules.winnerAt { lines := rules.lines } before after) =
      Rules.winnerAt { lines := rules.lines, strings := rules.strings } before after :=
    foldl_concat
      (g := fun ss => Rules.winnerAt { lines := rules.lines, strings := ss } before after)
      (findString_winnerAt rules.lines) [] rules.strings
  rw [hlines, hstrings]
  exact foldl_concat
    (g := fun bs => Rules.winnerAt { rules with blocks := bs } before after)
    (findBlock_winnerAt rules.lines rules.strings) [] rules.blocks

end

end SourceNotes
