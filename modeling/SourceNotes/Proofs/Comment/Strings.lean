/-
Where strings end.

In a string that ends with a single rune, an escape leaves some of these runes free to end it. By
a character of its own it leaves those behind an even number of that character, by doubling the
last one of each odd number in a row. The string ends with the first rune that is free.

* **`Escape.Frees`** — which runes are free;
* **`decideString_spec`** — a scan ends a string at a free rune, and goes on over a stretch that
  does not matter to which runes are free;
* **`reads_string_iff`**, **`Scanner.step_string`** — the end of a string, as a scan finds it.
-/
import SourceNotes.Proofs.Comment.Lines
import SourceNotes.Proofs.Comment.Steps
import SourceNotes.Proofs.Text.First
import Mathlib.Data.List.TakeWhile

namespace SourceNotes

open Head Text Charset

/-! ### Runs of a rune -/

namespace Text

/-- How many `c` a text ends with. -/
def runBefore (c : Char) (s : Text) : Nat := (s.reverse.takeWhile (· = c)).length

variable {c d : Char} {s t : Text}

theorem runBefore_append_of_mem (h : ∃ d ∈ t, d ≠ c) : runBefore c (s ++ t) = runBefore c t := by
  obtain ⟨d, hd, hne⟩ := h
  have hshort : (t.reverse.takeWhile (· = c)).length ≠ t.reverse.length := by
    intro hlen
    have hall := (List.takeWhile_prefix (· = c)).eq_of_length hlen
    have := List.mem_takeWhile_imp (hall ▸ List.mem_reverse.2 hd)
    exact hne (of_decide_eq_true this)
  rw [runBefore, List.reverse_append, List.takeWhile_append, if_neg hshort, runBefore]

theorem runBefore_append_of_all (h : ∀ d ∈ t, d = c) :
    runBefore c (s ++ t) = runBefore c s + runBefore c t := by
  have hall : t.reverse.takeWhile (· = c) = t.reverse :=
    List.takeWhile_eq_self_iff.2 fun d hd => decide_eq_true (h d (List.mem_reverse.1 hd))
  rw [runBefore, List.reverse_append, List.takeWhile_append, hall, if_pos rfl, List.length_append,
    runBefore, runBefore, hall, Nat.add_comm]

/-- A run that is as good as none leaves it open whether the run behind it is even. -/
theorem runBefore_append_mod (h : runBefore c s % 2 = 0) (t : Text) :
    runBefore c (s ++ t) % 2 = runBefore c t % 2 := by
  by_cases hall : ∀ d ∈ t, d = c
  · rw [runBefore_append_of_all hall]
    omega
  · rw [runBefore_append_of_mem (by simpa using hall)]

/-- The rune `q`, with these texts before it and behind it, is the last one of an odd number of them
in a row. -/
def EndsOddRun (q : Char) (before behind : Text) : Prop :=
  behind.head? ≠ some q ∧ runBefore q (before ++ [q]) % 2 = 1

end Text

/-! ### Free runes -/

namespace Escape

/-- In a string that ends with the rune `q`, of which `u` has been gone through, there is such a
rune in front of `v`, and it is free to end the string. -/
def Frees (e : Escape) (q : Char) (u v : Text) : Prop :=
  v.head? = some q ∧
    match e with
    | .none => True
    | .char c => if c = q then EndsOddRun q u v.tail else runBefore c u % 2 = 0
    | .double => EndsOddRun q u v.tail

/-- The rune whose runs tell what is free. -/
def counted (q : Char) : Escape → Char
  | .char c => c
  | _ => q

/-- Going over `w` in front of `rest` passes by no free rune, and leaves free what is free. -/
structure Skips (e : Escape) (q : Char) (w rest : Text) : Prop where
  inside : ∀ u v, w ++ rest = u ++ v → u.length < w.length → ¬ e.Frees q u v
  behind : ∀ u v, rest = u ++ v → (e.Frees q (w ++ u) v ↔ e.Frees q u v)

variable {e : Escape} {q c x : Char} {u v w rest : Text}

theorem frees_char_iff (hc : c ≠ q) :
    (Escape.char c).Frees q u v ↔ v.head? = some q ∧ runBefore c u % 2 = 0 := by
  simp only [Frees, if_neg hc]

theorem frees_doubled_iff (he : e = .double ∨ e = .char q) :
    e.Frees q u v ↔ v.head? = some q ∧ EndsOddRun q u v.tail := by
  rcases he with rfl | rfl
  · exact Iff.rfl
  · simp only [Frees, if_true]

theorem not_frees_cons (hx : x ≠ q) : ¬ e.Frees q u (x :: v) :=
  fun h => hx (Option.some.inj h.1)

theorem frees_append_iff (hw : runBefore (e.counted q) w % 2 = 0) (u v : Text) :
    e.Frees q (w ++ u) v ↔ e.Frees q u v := by
  have hdoubled (he : e = .double ∨ e = .char q) (hw : runBefore q w % 2 = 0) :
      e.Frees q (w ++ u) v ↔ e.Frees q u v := by
    rw [frees_doubled_iff he, frees_doubled_iff he, EndsOddRun, EndsOddRun, List.append_assoc,
      runBefore_append_mod hw]
  cases e with
  | none => exact Iff.rfl
  | double => exact hdoubled (.inl rfl) hw
  | char c =>
    by_cases hc : c = q
    · exact hdoubled (.inr (by rw [hc])) (hc ▸ hw)
    · have hmod : runBefore c (w ++ u) % 2 = runBefore c u % 2 := runBefore_append_mod hw u
      rw [frees_char_iff hc, frees_char_iff hc, hmod]

/-- A rune that has nothing to do with the end of the string. -/
theorem skips_one (hq : x ≠ q) (hcounted : x ≠ e.counted q) (rest : Text) :
    e.Skips q [x] rest where
  inside u v htext hlen := by
    obtain rfl : u = [] := List.length_eq_zero_iff.1 (by simpa using hlen)
    obtain rfl : x :: rest = v := htext
    exact not_frees_cons hq
  behind u v _ := frees_append_iff (by simp [runBefore, hcounted]) u v

/-- An escape character with nothing behind it to escape. -/
theorem skips_char_one (hq : c ≠ q) (hend : rest.head? ≠ some q) (hself : rest.head? ≠ some c) :
    (Escape.char c).Skips q [c] rest where
  inside u v htext hlen := by
    obtain rfl : u = [] := List.length_eq_zero_iff.1 (by simpa using hlen)
    obtain rfl : c :: rest = v := htext
    exact not_frees_cons hq
  behind u v htext := by
    rw [frees_char_iff hq, frees_char_iff hq]
    cases u with
    | nil =>
      -- The rune behind it does not end the string at all.
      obtain rfl : rest = v := htext
      simp [hend]
    | cons d u =>
      subst htext
      have hd : d ≠ c := fun h => hself (by rw [h]; rfl)
      have hrun : runBefore c ([c] ++ d :: u) = runBefore c (d :: u) :=
        runBefore_append_of_mem ⟨d, List.mem_cons_self .., hd⟩
      rw [hrun]

/-- An escape character with what it escapes. -/
theorem skips_char_two (hq : c ≠ q) (hx : x = q ∨ x = c) (rest : Text) :
    (Escape.char c).Skips q [c, x] rest where
  inside u v htext hlen := by
    rcases u with _ | ⟨d, _ | ⟨d', u⟩⟩
    · obtain rfl : c :: x :: rest = v := htext
      exact not_frees_cons hq
    · obtain ⟨rfl, -⟩ := List.cons.inj htext
      rw [frees_char_iff hq]
      simp [runBefore]
    · exact absurd hlen (by simp)
  behind u v _ := by
    refine frees_append_iff ?_ u v
    rcases hx with rfl | rfl
    · simp [counted, runBefore, Ne.symm hq]
    · simp [counted, runBefore]

/-- The end of a string that is escaped by doubling it. -/
theorem skips_doubled (he : e = .double ∨ e = .char q) (rest : Text) : e.Skips q [q, q] rest where
  inside u v htext hlen := by
    rw [frees_doubled_iff he]
    rintro ⟨-, hnext, hodd⟩
    rcases u with _ | ⟨d, _ | ⟨d', u⟩⟩
    · obtain rfl : q :: q :: rest = v := htext
      exact hnext rfl
    · obtain ⟨rfl, -⟩ := List.cons.inj htext
      simp [runBefore] at hodd
    · exact absurd hlen (by simp)
  behind u v _ := by
    refine frees_append_iff ?_ u v
    rcases he with rfl | rfl <;> simp [counted, runBefore]

/-- The end of a string is free where it is not doubled. -/
theorem frees_doubled (he : e = .double ∨ e = .char q) (hnext : rest.head? ≠ some q) :
    e.Frees q [] (q :: rest) :=
  (frees_doubled_iff he).2 ⟨rfl, hnext, by simp [runBefore]⟩

/-! ### What is skipped together -/

theorem startsWith_pair (c d : Char) (rest : Text) :
    startsWith [c, d] (c :: rest) = true ↔ rest.head? = some d := by
  constructor
  · intro h
    obtain ⟨t, ht⟩ := List.isPrefixOf_iff_prefix.1 h
    obtain rfl : d :: t = rest := (List.cons.inj ht).2
    rfl
  · intro h
    obtain ⟨t, rfl⟩ := List.head?_eq_some_iff.1 h
    exact List.isPrefixOf_iff_prefix.2 ⟨t, rfl⟩

theorem unitAt_doubled (he : e = .double ∨ e = .char q) (after : Text) :
    e.unitAt [q] after = if startsWith [q, q] after then [q, q] else [] := by
  rcases he with rfl | rfl
  · rfl
  · simp only [unitAt, List.head?_cons, if_true]

theorem unitAt_char (hc : c ≠ q) (after : Text) :
    (Escape.char c).unitAt [q] after =
      if startsWith [c, q] after then [c, q]
      else if startsWith [c, c] after then [c, c] else [] := by
  have hhead : ¬ [q].head? = some c := fun h => hc (Option.some.inj h).symm
  simp only [unitAt, if_neg hhead]

/-- An escape is by none, by doubling, or by a character of its own. -/
theorem kinds (e : Escape) (q : Char) :
    e = .none ∨ (e = .double ∨ e = .char q) ∨ ∃ c, c ≠ q ∧ e = .char c := by
  cases e with
  | none => exact .inl rfl
  | double => exact .inr (.inl (.inl rfl))
  | char c =>
    by_cases hc : c = q
    · exact .inr (.inl (.inr (by rw [hc])))
    · exact .inr (.inr ⟨c, hc, rfl⟩)

theorem counted_doubled (he : e = .double ∨ e = .char q) : e.counted q = q := by
  rcases he with rfl | rfl <;> rfl

/-- What is skipped together may be skipped. -/
theorem skips_unitAt (hunit : e.unitAt [q] (w ++ rest) = w) (hw : w ≠ []) : e.Skips q w rest := by
  rcases e.kinds q with rfl | he | ⟨c, hc, rfl⟩
  · exact absurd hunit.symm hw
  · rw [unitAt_doubled he] at hunit
    split at hunit
    · subst hunit
      exact skips_doubled he rest
    · exact absurd hunit.symm hw
  · rw [unitAt_char hc] at hunit
    split at hunit
    · subst hunit
      exact skips_char_two hc (.inl rfl) rest
    · split at hunit
      · subst hunit
        exact skips_char_two hc (.inr rfl) rest
      · exact absurd hunit.symm hw

/-- Where nothing is skipped together, a rune that does not end the string may be skipped. -/
theorem skips_of_unitAt_nil (hunit : e.unitAt [q] (x :: rest) = []) (hx : x ≠ q) :
    e.Skips q [x] rest := by
  rcases e.kinds q with rfl | he | ⟨c, hc, rfl⟩
  · exact skips_one (e := .none) hx hx rest
  · exact skips_one hx (by rwa [counted_doubled he]) rest
  · by_cases hxc : x = c
    · subst hxc
      simp only [unitAt_char hc, startsWith_pair] at hunit
      refine skips_char_one hc (fun hend => ?_) fun hself => ?_
      · simp [hend] at hunit
      · simp [hself, hc] at hunit
    · exact skips_one (e := .char c) hx hxc rest

/-- Where nothing is skipped together, the end of the string is free. -/
theorem frees_of_unitAt_nil (hunit : e.unitAt [q] (q :: rest) = []) :
    e.Frees q [] (q :: rest) := by
  rcases e.kinds q with rfl | he | ⟨c, hc, rfl⟩
  · exact ⟨rfl, trivial⟩
  · simp only [unitAt_doubled he, startsWith_pair] at hunit
    refine frees_doubled he fun hnext => ?_
    simp [hnext] at hunit
  · exact (frees_char_iff hc).2 ⟨rfl, rfl⟩

end Escape

/-! ### The end of a string -/

variable {rule : StringRule} {q : Char} {before after s rest : Text} {cut : Bool} {β : Type} {b : β}

/-- What a scan decides inside a string: the string ends with a free rune, or the scan goes on over
a stretch that it may skip. -/
theorem decideString_spec (hstop : rule.stop = [q]) (hafter : after ≠ []) (before : Text) (b : β) :
    (∃ rest, after = q :: rest ∧ rule.escape.Frees q [] after ∧
      decideString rule b () before after = .last 1 b) ∨
    ∃ w rest, after = w ++ rest ∧ w ≠ [] ∧ rule.escape.Skips q w rest ∧
      decideString rule b () before after = .more w.length () := by
  obtain ⟨x, rest, rfl⟩ := List.exists_cons_of_ne_nil hafter
  unfold decideString
  rw [hstop]
  by_cases hunit : rule.escape.unitAt [q] (x :: rest) = []
  · rw [if_neg (not_not_intro hunit)]
    by_cases hx : x = q
    · subst hx
      refine .inl ⟨rest, rfl, Escape.frees_of_unitAt_nil hunit, ?_⟩
      simp [startsWith, List.isPrefixOf]
    · refine .inr ⟨[x], rest, rfl, List.cons_ne_nil _ _, Escape.skips_of_unitAt_nil hunit hx, ?_⟩
      simp [startsWith, List.isPrefixOf, Ne.symm hx]
  · have hstands := (unitAt_spec rule.escape [q] (x :: rest)).1
    obtain ⟨rest', hrest⟩ := List.isPrefixOf_iff_prefix.1 hstands
    refine .inr ⟨_, rest', hrest.symm, hunit, Escape.skips_unitAt ?_ hunit, if_pos hunit⟩
    rw [hrest]

theorem reads_string_of_first (hstop : rule.stop = [q])
    (h : First (rule.escape.Frees q) s (q :: rest)) :
    Reads (decideString rule b) cut () before (s ++ [q]) rest b := by
  -- By the length of what comes before the end.
  induction hn : s.length using Nat.strongRecOn generalizing s before with
  | ind n ih =>
    subst hn
    have hafter : s ++ q :: rest ≠ [] := List.append_ne_nil_of_right_ne_nil _ (List.cons_ne_nil _ _)
    rcases decideString_spec hstop hafter before b with
      ⟨rest', htext, hfree, hd⟩ | ⟨w, rest', htext, hw, hskips, hd⟩
    · have hle := h.least [] _ rfl hfree
      obtain rfl : s = [] := List.length_eq_zero_iff.1 (Nat.le_zero.1 hle)
      exact .last hd (List.cons_ne_nil _ _)
    · obtain ⟨t, rfl, rfl⟩ := h.exists_behind htext.symm hskips.inside
      have hlt : t.length < (w ++ t).length := by
        have := List.length_pos_iff.2 hw
        rw [List.length_append]
        omega
      have hbehind : First (rule.escape.Frees q) t (q :: rest) :=
        h.of_prepend.congr hskips.behind
      rw [List.append_assoc]
      refine .more ?_ hw (ih _ hlt hbehind rfl)
      simpa only [List.append_assoc, List.singleton_append] using hd

theorem exists_first_of_reads_string (hstop : rule.stop = [q]) {v : Unit} {b' : β}
    (h : Reads (decideString rule b) cut v before s rest b') :
    ∃ t, s = t ++ [q] ∧ First (rule.escape.Frees q) t (q :: rest) := by
  induction h with
  | stop hd _ => exact absurd hd decideString_ne_stop
  | @last _ before s rest _ hd hs =>
    rcases decideString_spec hstop (List.append_ne_nil_of_left_ne_nil hs rest) before b with
      ⟨rest', htext, hfree, hd'⟩ | ⟨w, rest', -, -, -, hd'⟩
    · rw [hd'] at hd
      have hfront : s ++ rest = [q] ++ rest' := htext
      obtain ⟨rfl, rfl⟩ := List.append_inj hfront (Decision.last.inj hd).1.symm
      exact ⟨[], rfl, .here hfree⟩
    · rw [hd'] at hd
      cases hd
  | @more _ _ before u s rest _ hd hu _ ih =>
    rcases decideString_spec hstop (List.append_ne_nil_of_left_ne_nil hu (s ++ rest)) before b with
      ⟨rest', -, -, hd'⟩ | ⟨w, rest', htext, -, hskips, hd'⟩
    · rw [hd'] at hd
      cases hd
    · rw [hd'] at hd
      obtain ⟨rfl, rfl⟩ := List.append_inj htext (Decision.more.inj hd).1.symm
      obtain ⟨t, rfl, hfirst⟩ := ih
      refine ⟨u ++ t, (List.append_assoc ..).symm, First.prepend (fun v x hvx => ?_) ?_⟩
      · refine hskips.inside v x ?_
        rw [← hvx, List.append_assoc, List.singleton_append]
      · refine hfirst.congr fun v x hvx => (hskips.behind v x ?_).symm
        rw [← hvx, List.append_assoc, List.singleton_append]

/-- A scan reads a string up to the first rune that is free to end it. -/
theorem reads_string_iff (hstop : rule.stop = [q]) :
    Reads (decideString rule b) cut () before s rest b ↔
      ∃ t, s = t ++ [q] ∧ First (rule.escape.Frees q) t (q :: rest) := by
  constructor
  · exact exists_first_of_reads_string hstop
  · rintro ⟨t, rfl, hfirst⟩
    exact reads_string_of_first hstop hfirst

/-! ### Scans -/

namespace Scanner

variable {rules : Rules}

/-- **Where strings end**: at a head of a decodable text where a string wins that ends with a single
rune, the scan goes on in code behind the first of these runes that is free, with no comment; if
none is free, there is no comment any more, and no error. -/
theorem step_string {charset : Charset} {octets : Octets} {text charsetName : Text} {maxPeek : Int}
    (htext : charset.Decodes octets text) (chunkSize : Int)
    (hname : Charset.ofName charsetName = .ok charset) (hfit : rules.Fits maxPeek.toNat) :
    ∃ r, Reader.ofOctets octets charsetName maxPeek chunkSize = .ok r ∧
      ∀ {comments h h₁ rule q}, GetsTo rules { reader := r } comments h →
        opening rules h = .ok (some (.string rule)) h₁ → rule.stop = [q] →
        ∃ before after, text = before ++ (rule.start ++ after) ∧
          h.At (.ofReader r none True) before (rule.start ++ after) ∧
          rules.winnerAt before (rule.start ++ after) = some (.string rule) ∧
          (∀ s rest, after = s ++ q :: rest → First (rule.escape.Frees q) s (q :: rest) →
            ∃ h', step rules h = .ok none h' ∧
              h'.At (.ofReader r none True) (before ++ (rule.start ++ (s ++ [q]))) rest ∧
              (ofReader rules r).drain =
                (comments ++ (ofHead rules h').drain.1, (ofHead rules h').drain.2)) ∧
          ((∀ u v, after = u ++ v → ¬ rule.escape.Frees q u v) →
            ∃ last, (ofReader rules r).drain = (comments, .ok last) ∧ last.finished = true ∧
              last.error = none) := by
  obtain ⟨r, hr, hserves, hplace⟩ := exists_opening htext chunkSize hname hfit
  refine ⟨r, hr, fun {comments h h₁ rule q} hgets hopening hstop => ?_⟩
  obtain ⟨before, after, rfl, hat, hwin⟩ := hplace hgets hopening
  have hdrain : (ofReader rules r).drain =
      (comments ++ (ofHead rules h).drain.1, (ofHead rules h).drain.2) := drain_of_getsTo hgets
  refine ⟨before, after, rfl, hat, hwin, ?_, fun hno => ?_⟩
  · rintro s rest rfl hfirst
    have hclose : (Opening.string rule).Closes (Source.ofReader r none True).cut
        (before ++ rule.start) (s ++ [q]) rest none :=
      .string (reads_string_of_first hstop hfirst)
    have htext' : s ++ q :: rest = s ++ [q] ++ rest := by
      rw [List.append_assoc, List.singleton_append]
    rw [htext'] at hwin hat
    obtain ⟨h', hstep, hat'⟩ := (hat.step_closed hserves hwin hclose).exists_ok trivial
    exact ⟨h', hstep, hat', by rw [hdrain, drain_congr (next_of_step_none hstep)]⟩
  · obtain ⟨last, hnext, hlast⟩ :=
      hat.next_open hserves trivial rfl hwin fun s' rest form hs hclose => by
        cases hclose with
        | string hreads =>
          obtain ⟨t, rfl, hfirst⟩ := exists_first_of_reads_string hstop hreads
          refine hno t (q :: rest) ?_ hfirst.holds
          rw [hs, List.append_assoc, List.singleton_append]
    exact ⟨last, by rw [hdrain, drain_of_none hnext, List.append_nil], hlast⟩

/-- A string with an escaped end in it. -/
theorem step_string_escaped :
    (Charset.plain .utf8).Decodes [0x27, 0x5C, 0x27, 0x27, 0x61] "'\\''a".toList ∧
      Charset.ofName "utf-8".toList = .ok (.plain .utf8) ∧
      Language.slashStyle.Fits (1024 : Int).toNat ∧
      ∃ r h₁ h', Reader.ofOctets [0x27, 0x5C, 0x27, 0x27, 0x61] "utf-8".toList 1024 1 = .ok r ∧
        GetsTo Language.slashStyle { reader := r } [] { reader := r } ∧
        opening Language.slashStyle { reader := r } =
          .ok (some (.string Language.singleQuote)) h₁ ∧
        Language.singleQuote.stop = ['\''] ∧
        First (Language.singleQuote.escape.Frees '\'') ['\\', '\''] ['\'', 'a'] ∧
        step Language.slashStyle { reader := r } = .ok none h' ∧
        h'.At (.ofReader r none True) "'\\''".toList ['a'] := by
  have htext : (Charset.plain .utf8).Decodes [0x27, 0x5C, 0x27, 0x27, 0x61] "'\\''a".toList :=
    Charset.decodes_plain (decodes_of_ascii (by simp))
  have hname : Charset.ofName "utf-8".toList = .ok (.plain .utf8) := rfl
  have hfit : Language.slashStyle.Fits (1024 : Int).toNat := by decide
  refine ⟨htext, hname, hfit, ?_⟩
  obtain ⟨r, hr, hstring⟩ := step_string htext 1 hname hfit
  obtain ⟨h₁, hopening⟩ := exists_opening_start htext (by decide) hname hfit
    (o := .string Language.singleQuote) rfl hr
  obtain ⟨before, after, htext, hat, -, hends, -⟩ := hstring .here hopening rfl
  obtain ⟨-, -, -, hpos⟩ := Reader.fields_ofOctets hr
  obtain rfl := hat.before_eq_nil hpos
  obtain rfl : ['\\', '\'', '\'', 'a'] = after := (List.cons.inj htext).2
  have hreads : Reads (decideString Language.singleQuote ()) false () ['\'']
      ['\\', '\'', '\''] ['a'] () :=
    .more (u := ['\\', '\'']) rfl (by decide) (.last rfl (by decide))
  obtain ⟨t, ht, hfirst⟩ := (reads_string_iff rfl).1 hreads
  obtain rfl : ['\\', '\''] = t :=
    List.append_cancel_right (show ['\\', '\''] ++ ['\''] = t ++ ['\''] from ht)
  obtain ⟨h', hstep, hat', -⟩ := hends _ _ rfl hfirst
  exact ⟨r, h₁, h', hr, .here, hopening, rfl, hfirst, hstep, hat'⟩

end Scanner

end SourceNotes
