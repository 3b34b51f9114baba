/-
What an escaped text is shown as.

Escaping keeps tags from being read, and the slashes before them come back as they were. It does
not reach the slashes before a bracket that opens no tag, one of which is lost, and of the slashes
at the end of a text it looks at a single one only.

* **`Markup.GuardsTags`** — texts whose slashes stand before brackets only where there is a tag;
* **`Markup.exists_shown`** — an escaped text is shown as it is, up to its end, if it is one of
  them;
* **`Markup.render_escape_append_iff`**, **`Markup.render_escape_iff`** — when an escaped text is
  shown as it is in front of a tag, and when at the end.
-/
import SourceNotes.Proofs.Report.Markup

namespace SourceNotes.Markup

variable {s rest tag : Text} {c d : Char}

/-! ### Slashes -/

theorem slashes_replicate (n : Nat) (hd : d ≠ '\\') (s : Text) :
    slashes (List.replicate n '\\' ++ d :: s) = n ∧
      afterSlashes (List.replicate n '\\' ++ d :: s) = d :: s := by
  have hpos : ∀ c ∈ List.replicate n '\\', decide (c = '\\') = true :=
    fun c hc => decide_eq_true (List.eq_of_mem_replicate hc)
  constructor
  · rw [slashes, List.takeWhile_append_of_pos hpos, List.takeWhile_cons_of_neg (by simpa using hd),
      List.append_nil, List.length_replicate]
  · rw [afterSlashes, List.dropWhile_append_of_pos hpos,
      List.dropWhile_cons_of_neg (by simpa using hd)]

theorem ne_slash_of_afterSlashes (h : afterSlashes s = d :: rest) : d ≠ '\\' := by
  have hfirst := List.head?_dropWhile_not (· = '\\') s
  have hhead : (s.dropWhile (· = '\\')).head? = some d := congrArg List.head? h
  rw [hhead] at hfirst
  exact of_decide_eq_false hfirst

theorem eq_of_afterSlashes (h : afterSlashes s = rest) :
    s = List.replicate (slashes s) '\\' ++ rest := by
  rw [← h, replicate_append_afterSlashes]

/-- Slashes at the end are behind everything else. -/
theorem replicate_suffix_append_iff {n : Nat} {front : Text} (hd : d ≠ '\\') :
    List.replicate n '\\' <:+ front ++ d :: s ↔ List.replicate n '\\' <:+ s := by
  have hmem : d ∉ List.replicate n '\\' := fun h => hd (List.eq_of_mem_replicate h)
  have hs : s <:+ front ++ d :: s := (List.suffix_cons d s).trans (List.suffix_append _ _)
  refine ⟨fun h => ?_, fun h => h.trans hs⟩
  have hsub : ∀ t, d :: s <:+ t → t = List.replicate n '\\' → False := by
    rintro t ht rfl
    exact hmem (ht.subset List.mem_cons_self)
  rcases List.suffix_or_suffix_of_suffix h (List.suffix_append front (d :: s)) with hin | hin
  · rcases List.suffix_cons_iff.1 hin with heq | hin
    · exact (hsub _ (heq ▸ List.suffix_refl _) rfl).elim
    · exact hin
  · exact (hsub _ hin rfl).elim

theorem replicate_suffix_replicate_iff {m n : Nat} :
    List.replicate m c <:+ List.replicate n c ↔ m ≤ n := by
  constructor
  · intro h
    have hlen := h.length_le
    rwa [List.length_replicate, List.length_replicate] at hlen
  · intro h
    refine ⟨List.replicate (n - m) c, ?_⟩
    rw [List.replicate_append_replicate, Nat.sub_add_cancel h]

/-! ### Cases of escaping -/

/-- A text whose single slash at the end is doubled. -/
def doubled (s : Text) : Text := if ['\\'] <:+ s ∧ ¬ ['\\', '\\'] <:+ s then s ++ ['\\'] else s

theorem escape_eq (s : Text) : escape s = doubled (escapeTags s) := by
  rw [escape, doubled]
  simp only [Text.endsWith, Bool.and_eq_true, Bool.not_eq_true', ← Bool.not_eq_true,
    List.isSuffixOf_iff_suffix]

theorem doubled_append {front : Text} (hd : d ≠ '\\') (s : Text) :
    doubled (front ++ d :: s) = front ++ d :: doubled s := by
  have hone : ['\\'] <:+ front ++ d :: s ↔ ['\\'] <:+ s := replicate_suffix_append_iff (n := 1) hd
  have htwo : ['\\', '\\'] <:+ front ++ d :: s ↔ ['\\', '\\'] <:+ s :=
    replicate_suffix_append_iff (n := 2) hd
  simp only [doubled, hone, htwo]
  split
  · rw [List.append_assoc, List.cons_append]
  · rfl

theorem doubled_replicate (n : Nat) :
    doubled (List.replicate n '\\') = List.replicate (if n = 1 then 2 else n) '\\' := by
  have hone : ['\\'] <:+ List.replicate n '\\' ↔ 1 ≤ n := replicate_suffix_replicate_iff (m := 1)
  have htwo : ['\\', '\\'] <:+ List.replicate n '\\' ↔ 2 ≤ n :=
    replicate_suffix_replicate_iff (m := 2)
  simp only [doubled, hone, htwo]
  by_cases hn : n = 1
  · subst hn
    rfl
  · rw [if_neg (by omega), if_neg hn]

theorem afterSlashes_replicate (n : Nat) : afterSlashes (List.replicate n '\\') = [] :=
  List.dropWhile_eq_nil_iff.2 fun _ hc => decide_eq_true (List.eq_of_mem_replicate hc)

theorem escape_replicate (n : Nat) :
    escape (List.replicate n '\\') = List.replicate (if n = 1 then 2 else n) '\\' := by
  rw [escape_eq, escapeTags_of_slashes (afterSlashes_replicate n), doubled_replicate]

theorem escape_of_tag (h : tag? (afterSlashes s) = some (tag, rest)) :
    escape s = List.replicate (2 * slashes s + 1) '\\' ++ (tag ++ escape rest) := by
  obtain ⟨c, inner, -, -, rfl, -⟩ := tag?_eq_some_iff.1 h
  have hend (t : Text) :
      List.replicate (2 * slashes s + 1) '\\' ++ '[' :: c :: (inner ++ [']']) ++ t =
      (List.replicate (2 * slashes s + 1) '\\' ++ '[' :: c :: inner) ++ ']' :: t := by simp
  rw [escape_eq, escapeTags_of_tag h, hend, doubled_append (by decide), ← hend, ← escape_eq,
    List.append_assoc]

theorem escape_of_none (h : tag? (afterSlashes s) = none) (hafter : afterSlashes s = d :: rest) :
    escape s = List.replicate (slashes s) '\\' ++ d :: escape rest := by
  rw [escape_eq, escapeTags_of_none h hafter, doubled_append (ne_slash_of_afterSlashes hafter),
    escape_eq]

/-! ### Escaped texts in front of something -/

/-- What an escaped text is followed by: nothing, or a tag, which begins with a bracket. -/
def Closes (t : Text) : Prop := ∀ c ∈ t.head?, c = '['

/-- Whether a bracket that opens is followed by one that closes, and by none that opens before. -/
def closesBracket (s : Text) : Bool := (s.dropWhile fun d => d ≠ '[' ∧ d ≠ ']').head? == some ']'

theorem closesBracket_replicate (n : Nat) (s : Text) :
    closesBracket (List.replicate n '\\' ++ s) = closesBracket s := by
  have hpos : ∀ c ∈ List.replicate n '\\', decide (c ≠ '[' ∧ c ≠ ']') = true := by
    intro c hc
    rw [List.eq_of_mem_replicate hc]
    decide
  rw [closesBracket, List.dropWhile_append_of_pos hpos, closesBracket]

theorem closesBracket_cons (c : Char) (s : Text) : closesBracket (c :: s) =
    if c = '[' then false else if c = ']' then true else closesBracket s := by
  unfold closesBracket
  by_cases hopen : c = '['
  · subst hopen
    rfl
  · by_cases hclose : c = ']'
    · subst hclose
      rfl
    · rw [List.dropWhile_cons_of_pos (by simp [hopen, hclose]), if_neg hopen, if_neg hclose]

theorem closesBracket_of_closes {t : Text} (ht : Closes t) : closesBracket t = false := by
  cases t with
  | nil => rfl
  | cons c t => rw [ht c rfl, closesBracket_cons, if_pos rfl]

theorem tag?_bracket_eq_none_iff : tag? ('[' :: c :: s) = none ↔
    (isTagStart c = true → closesBracket s = false) := by
  rw [tag?, closesBracket]
  by_cases hstart : isTagStart c
  · simp only [hstart, if_true, true_implies]
    cases s.dropWhile fun d => d ≠ '[' ∧ d ≠ ']' with
    | nil => simp
    | cons d rest => by_cases hd : d = ']' <;> simp [hd]
  · simp [hstart]

/-- Escaping closes no bracket. -/
theorem closesBracket_escape {t : Text} (ht : Closes t) (h : closesBracket s = false) :
    closesBracket (escape s ++ t) = false := by
  induction s using induct with
  | slashes s hnil =>
    rw [eq_of_afterSlashes hnil, List.append_nil, escape_replicate, closesBracket_replicate]
    exact closesBracket_of_closes ht
  | tag s tag rest htag _ =>
    obtain ⟨c, inner, -, -, rfl, -⟩ := tag?_eq_some_iff.1 htag
    rw [escape_of_tag htag, List.append_assoc, closesBracket_replicate]
    exact (closesBracket_cons ..).trans (if_pos rfl)
  | other s d rest htag hafter ih =>
    rw [eq_of_afterSlashes hafter, closesBracket_replicate, closesBracket_cons] at h
    rw [escape_of_none htag hafter, List.append_assoc, closesBracket_replicate, List.cons_append,
      closesBracket_cons]
    by_cases hopen : d = '['
    · rw [if_pos hopen]
    · rw [if_neg hopen] at h ⊢
      by_cases hclose : d = ']'
      · rw [if_pos hclose] at h
        cases h
      · rw [if_neg hclose] at h ⊢
        exact ih h

/-- What is no tag is none when the tags behind it have been escaped. -/
theorem tag?_escape {t : Text} (ht : Closes t) (h : tag? (d :: s) = none) :
    tag? (d :: (escape s ++ t)) = none := by
  by_cases hd : d = '['
  · subst hd
    -- A bracket that opens is followed by what the text goes on with, or by a slash or a bracket.
    have hnone {e : Char} (he : isTagStart e = false) (u : Text) : tag? ('[' :: e :: u) = none :=
      tag?_bracket_eq_none_iff.2 fun hstart => absurd (he ▸ hstart) Bool.false_ne_true
    have hslashes (n : Nat) (u : Text) (hu : tag? ('[' :: u) = none) :
        tag? ('[' :: (List.replicate n '\\' ++ u)) = none := by
      cases n with
      | zero => exact hu
      | succ n => exact hnone (by decide) _
    induction s using induct with
    | slashes s hnil =>
      rw [eq_of_afterSlashes hnil, List.append_nil, escape_replicate]
      refine hslashes _ t ?_
      cases t with
      | nil => rw [tag?]; simp
      | cons c t => rw [ht c rfl]; exact hnone (by decide) t
    | tag s tag rest htag _ =>
      rw [escape_of_tag htag, List.append_assoc]
      exact hnone (by decide) _
    | other s c rest htag hafter _ =>
      rw [escape_of_none htag hafter, List.append_assoc]
      by_cases hzero : slashes s = 0
      · rw [eq_of_afterSlashes hafter, hzero] at h
        rw [hzero]
        have hclose := tag?_bracket_eq_none_iff.1 h
        exact tag?_bracket_eq_none_iff.2 fun hstart => closesBracket_escape ht (hclose hstart)
      · obtain ⟨n, hn⟩ := Nat.exists_eq_succ_of_ne_zero hzero
        rw [hn]
        exact hnone (by decide) _
  · by_contra hne
    obtain ⟨parts, hsome⟩ := Option.ne_none_iff_exists'.1 hne
    obtain ⟨c, inner, -, -, heq, hcons⟩ := tag?_eq_some_iff.1 hsome
    rw [heq] at hcons
    exact hd (List.cons.inj hcons).1

/-- A tag is shown, with the slashes before it, when it has been escaped. -/
theorem render_escape_of_tag {t : Text} (h : tag? (afterSlashes s) = some (tag, rest)) :
    render (escape s ++ t) =
      List.replicate (slashes s) '\\' ++ (tag ++ render (escape rest ++ t)) := by
  obtain ⟨c, inner, hstart, hinner, heq, -⟩ := tag?_eq_some_iff.1 h
  have hfound : tag? (tag ++ (escape rest ++ t)) = some (tag, escape rest ++ t) :=
    tag?_eq_some_iff.2 ⟨c, inner, hstart, hinner, heq, rfl⟩
  have htext : escape s ++ t = List.replicate (2 * slashes s + 1) '\\' ++
      '[' :: (c :: (inner ++ [']']) ++ (escape rest ++ t)) := by
    rw [escape_of_tag h, heq]
    simp
  obtain ⟨hcount, hafter⟩ := slashes_replicate (2 * slashes s + 1) (d := '[') (by decide)
    (c :: (inner ++ [']']) ++ (escape rest ++ t))
  have hbehind : afterSlashes (escape s ++ t) = tag ++ (escape rest ++ t) := by
    rw [htext, hafter, heq]
    rfl
  rw [render_of_tag (by rw [hbehind, hfound]), htext, hcount, if_pos (by omega)]
  have hhalf : (2 * slashes s + 1) / 2 = slashes s := by omega
  rw [hhalf, List.append_assoc]

/-- What is no tag is shown when it has been escaped, but for a slash before a bracket. -/
theorem render_escape_of_none {t : Text} (ht : Closes t) (h : tag? (afterSlashes s) = none)
    (hafter : afterSlashes s = d :: rest) :
    render (escape s ++ t) =
      List.replicate (if d = '[' then slashes s - 1 else slashes s) '\\' ++
        d :: render (escape rest ++ t) := by
  have htext : escape s ++ t = List.replicate (slashes s) '\\' ++ d :: (escape rest ++ t) := by
    rw [escape_of_none h hafter, List.append_assoc, List.cons_append]
  obtain ⟨hcount, hbehind⟩ :=
    slashes_replicate (slashes s) (ne_slash_of_afterSlashes hafter) (escape rest ++ t)
  rw [← htext] at hcount hbehind
  rw [hafter] at h
  rw [render_of_none (by rw [hbehind]; exact tag?_escape ht h) hbehind, hcount]

/-! ### What is shown of an escaped text -/

/-- Every slash in front of a bracket that opens stands before a tag. -/
def GuardsTags (s : Text) : Prop := ∀ t, '\\' :: '[' :: t <:+ s → tag? ('[' :: t) ≠ none

theorem guardsTags_cons (c : Char) (s : Text) : GuardsTags (c :: s) ↔
    (c = '\\' → s.head? = some '[' → tag? s ≠ none) ∧ GuardsTags s := by
  constructor
  · intro h
    refine ⟨?_, fun t ht => h t (ht.trans (List.suffix_cons c s))⟩
    rintro rfl hhead
    obtain ⟨t, rfl⟩ : ∃ t, s = '[' :: t := by
      cases s with
      | nil => cases hhead
      | cons e t => exact ⟨t, by rw [Option.some.inj hhead]⟩
    exact h t (List.suffix_refl _)
  · rintro ⟨hfront, hrest⟩ t ht
    rcases List.suffix_cons_iff.1 ht with heq | hin
    · obtain ⟨hc, hs⟩ := List.cons.inj heq
      have hguard := hfront hc.symm (by rw [← hs]; rfl)
      rwa [hs]
    · exact hrest t hin

theorem guardsTags_nil : GuardsTags [] :=
  fun _ ht => absurd (List.suffix_nil.1 ht) (List.cons_ne_nil _ _)

theorem guardsTags_replicate {n : Nat} (hd : d ≠ '\\') (s : Text) :
    GuardsTags (List.replicate n '\\' ++ d :: s) ↔
      (n ≠ 0 → d = '[' → tag? (d :: s) ≠ none) ∧ GuardsTags s := by
  induction n with
  | zero => simp [guardsTags_cons, hd]
  | succ n ih =>
    rw [List.replicate_succ, List.cons_append, guardsTags_cons, ih]
    cases n with
    | zero => simp
    | succ n => simp [List.replicate_succ]

/-- There is no slash before a bracket in a tag. -/
theorem guardsTags_tag_append (h : tag? tag = some (tag, [])) (s : Text) :
    GuardsTags (tag ++ s) ↔ GuardsTags s := by
  obtain ⟨c, inner, hstart, hinner, rfl, -⟩ := tag?_eq_some_iff.1 h
  have hpass : ∀ u : Text, '[' ∉ u → (GuardsTags (u ++ ']' :: s) ↔ GuardsTags s) := by
    intro u hu
    induction u with
    | nil => simp [guardsTags_cons]
    | cons e u ih =>
      rw [List.mem_cons, not_or] at hu
      have hhead : (u ++ ']' :: s).head? ≠ some '[' := by
        cases u with
        | nil => simp
        | cons f u => exact fun hf => hu.2 (Option.some.inj hf ▸ List.mem_cons_self)
      rw [List.cons_append, guardsTags_cons, ih hu.2]
      exact and_iff_right fun _ hf => absurd hf hhead
  have hbracket : '[' ∉ c :: inner := by
    rw [List.mem_cons, not_or]
    refine ⟨?_, fun hmem => (hinner _ hmem).1 rfl⟩
    rintro rfl
    exact absurd hstart (by decide)
  have htext : '[' :: c :: (inner ++ [']']) ++ s = '[' :: ((c :: inner) ++ ']' :: s) := by simp
  rw [htext, guardsTags_cons, hpass _ hbracket]
  simp

theorem tag?_self (h : tag? s = some (tag, rest)) :
    tag? tag = some (tag, []) ∧ s = tag ++ rest := by
  obtain ⟨c, inner, hstart, hinner, heq, hs⟩ := tag?_eq_some_iff.1 h
  exact ⟨tag?_eq_some_iff.2 ⟨c, inner, hstart, hinner, heq, (List.append_nil tag).symm⟩, hs⟩

/-- Slashes before a tag are guards, and it is the rest that counts. -/
theorem guardsTags_of_tag (h : tag? (afterSlashes s) = some (tag, rest)) :
    GuardsTags s ↔ GuardsTags rest := by
  obtain ⟨hself, htext⟩ := tag?_self h
  obtain ⟨t, rfl⟩ := exists_bracket hself
  have hcons := guardsTags_cons '[' (t ++ rest)
  have hfound : tag? ('[' :: (t ++ rest)) ≠ none := by
    rw [← List.cons_append, ← htext, h]
    exact Option.some_ne_none _
  rw [← List.cons_append, guardsTags_tag_append hself] at hcons
  rw [eq_of_afterSlashes htext, List.cons_append, guardsTags_replicate (by decide), hcons]
  simp [hfound]

/-- Slashes before a bracket that begins no tag guard nothing. -/
theorem guardsTags_of_none (h : tag? (afterSlashes s) = none)
    (hafter : afterSlashes s = d :: rest) :
    GuardsTags s ↔ ¬ (slashes s ≠ 0 ∧ d = '[') ∧ GuardsTags rest := by
  rw [hafter] at h
  have hiff := guardsTags_replicate (n := slashes s) (ne_slash_of_afterSlashes hafter) rest
  rw [← eq_of_afterSlashes hafter] at hiff
  rw [hiff]
  simp only [h, ne_eq, not_true_eq_false, imp_false, not_and]

/-- A text that was escaped is shown up to the slashes at its end, which depend on what follows: as
it is if its slashes guard tags only, and else differently. -/
theorem exists_shown (s : Text) :
    ∃ (body shown : Text) (n : Nat), s = body ++ List.replicate n '\\' ∧ ¬ ['\\'] <:+ body ∧
      (∀ t, Closes t → render (escape s ++ t) =
        shown ++ render (escape (List.replicate n '\\') ++ t)) ∧
      (GuardsTags s → shown = body) ∧ (¬ GuardsTags s → ∀ u v, shown ++ u ≠ body ++ v) := by
  induction s using induct with
  | slashes s hnil =>
    have hs := eq_of_afterSlashes hnil
    rw [List.append_nil] at hs
    refine ⟨[], [], slashes s, hs, by decide, fun t _ => by rw [← hs, List.nil_append],
      fun _ => rfl, fun hguards => absurd ?_ hguards⟩
    intro t ht
    rw [hs] at ht
    have hmem := ht.subset (List.mem_cons_of_mem _ List.mem_cons_self)
    exact absurd (List.eq_of_mem_replicate hmem) (by decide)
  | tag s tag rest htag ih =>
    obtain ⟨body, shown, n, hrest, hlast, hshown, hsame, hother⟩ := ih
    obtain ⟨hself, htext⟩ := tag?_self htag
    refine ⟨List.replicate (slashes s) '\\' ++ (tag ++ body),
      List.replicate (slashes s) '\\' ++ (tag ++ shown), n, ?_, ?_, fun t ht => ?_,
      fun hguards => ?_, fun hguards u v heq => ?_⟩
    · rw [List.append_assoc, List.append_assoc, ← hrest, ← eq_of_afterSlashes htext]
    · obtain ⟨c, inner, -, -, rfl, -⟩ := tag?_eq_some_iff.1 hself
      have hend : List.replicate (slashes s) '\\' ++ ('[' :: c :: (inner ++ [']']) ++ body) =
          List.replicate (slashes s) '\\' ++ '[' :: c :: inner ++ ']' :: body := by simp
      rw [hend]
      exact fun h => hlast ((replicate_suffix_append_iff (n := 1) (by decide)).1 h)
    · rw [render_escape_of_tag htag, hshown t ht]
      simp
    · rw [hsame ((guardsTags_of_tag htag).1 hguards)]
    · simp only [List.append_assoc, List.append_cancel_left_eq] at heq
      exact hother (fun hrest => hguards ((guardsTags_of_tag htag).2 hrest)) u v heq
  | other s d rest htag hafter ih =>
    obtain ⟨body, shown, n, hrest, hlast, hshown, hsame, hother⟩ := ih
    have hd := ne_slash_of_afterSlashes hafter
    refine ⟨List.replicate (slashes s) '\\' ++ d :: body,
      List.replicate (if d = '[' then slashes s - 1 else slashes s) '\\' ++ d :: shown, n, ?_,
      fun h => hlast ((replicate_suffix_append_iff (n := 1) hd).1 h), fun t ht => ?_,
      fun hguards => ?_, fun hguards u v heq => ?_⟩
    · rw [List.append_assoc, List.cons_append, ← hrest, ← eq_of_afterSlashes hafter]
    · rw [render_escape_of_none ht htag hafter, hshown t ht]
      simp
    · obtain ⟨hkept, hguards⟩ := (guardsTags_of_none htag hafter).1 hguards
      rw [hsame hguards]
      split
      · next hopen =>
        rw [Classical.not_not.1 fun hzero => hkept ⟨hzero, hopen⟩]
      · rfl
    · -- Either the number of slashes in front of the bracket is another, or the rest differs.
      have hcount := congrArg slashes heq
      rw [List.append_assoc, List.append_assoc, List.cons_append, List.cons_append,
        (slashes_replicate _ hd _).1, (slashes_replicate _ hd _).1] at hcount
      rw [hcount, List.append_assoc, List.append_assoc, List.append_cancel_left_eq,
        List.cons_append, List.cons_append] at heq
      refine hother (fun hrest => hguards ((guardsTags_of_none htag hafter).2 ⟨?_, hrest⟩)) u v
        (List.cons.inj heq).2
      rintro ⟨hzero, hopen⟩
      rw [if_pos hopen] at hcount
      omega

/-- The number of slashes at the end of a text. -/
theorem replicate_suffix_iff {body : Text} (h : ¬ ['\\'] <:+ body) {m n : Nat} :
    List.replicate m '\\' <:+ body ++ List.replicate n '\\' ↔ m ≤ n := by
  rcases List.eq_nil_or_concat body with rfl | ⟨front, c, rfl⟩
  · exact replicate_suffix_replicate_iff
  · rw [List.concat_eq_append] at h ⊢
    have hc : c ≠ '\\' := by
      rintro rfl
      exact h ⟨front, rfl⟩
    rw [List.append_assoc, List.singleton_append,
      replicate_suffix_append_iff hc,
      replicate_suffix_replicate_iff]

/-- Of slashes before a tag every second one is shown, and one too many makes it plain text. -/
theorem render_slashes_append (htag : tag? tag = some (tag, [])) (n : Nat) :
    render (List.replicate n '\\' ++ tag) =
      List.replicate (n / 2) '\\' ++ if n % 2 = 1 then tag else [] := by
  obtain ⟨t, rfl⟩ := exists_bracket htag
  obtain ⟨hcount, hafter⟩ := slashes_replicate n (d := '[') (by decide) t
  rw [render_of_tag (by rw [hafter, htag]), hcount, render_nil, List.append_nil]

theorem closes_of_tag (htag : tag? tag = some (tag, [])) : Closes tag := by
  obtain ⟨t, rfl⟩ := exists_bracket htag
  rintro c ⟨⟩
  rfl

/-- An escaped text in front of a tag and something else is shown as it is if and only if its
slashes guard tags only and it does not end in two of them. -/
theorem render_escape_append_iff (htag : tag? tag = some (tag, [])) (hd : d ≠ '\\') (u v : Text) :
    render (escape s ++ tag) ++ d :: u = s ++ d :: v ↔
      (GuardsTags s ∧ ¬ ['\\', '\\'] <:+ s) ∧ u = v := by
  obtain ⟨body, shown, n, rfl, hlast, hshown, hsame, hother⟩ := exists_shown s
  have htwo : ['\\', '\\'] <:+ body ++ List.replicate n '\\' ↔ 2 ≤ n :=
    replicate_suffix_iff hlast (m := 2)
  rw [hshown tag (closes_of_tag htag), escape_replicate, render_slashes_append htag, htwo]
  constructor
  · intro heq
    have hguards : GuardsTags (body ++ List.replicate n '\\') := by
      by_contra hne
      simp only [List.append_assoc] at heq
      exact hother hne _ _ heq
    rw [hsame hguards] at heq
    simp only [List.append_assoc, List.append_cancel_left_eq] at heq
    -- As many slashes are shown as there are, for the next character is none.
    obtain ⟨e, w, he, hnext⟩ : ∃ e w, e ≠ '\\' ∧
        (if (if n = 1 then 2 else n) % 2 = 1 then tag else []) ++ d :: u = e :: w := by
      obtain ⟨t, rfl⟩ := exists_bracket htag
      by_cases hodd : (if n = 1 then 2 else n) % 2 = 1
      · exact ⟨'[', t ++ d :: u, by decide, by rw [if_pos hodd, List.cons_append]⟩
      · exact ⟨d, u, hd, by rw [if_neg hodd, List.nil_append]⟩
    rw [hnext] at heq
    have hcount := congrArg slashes heq
    rw [(slashes_replicate _ he _).1, (slashes_replicate _ hd _).1] at hcount
    rw [hcount, List.append_cancel_left_eq] at heq
    have hsmall : n = 0 ∨ n = 1 := by
      split at hcount <;> omega
    refine ⟨⟨hguards, by omega⟩, ?_⟩
    rcases hsmall with rfl | rfl
    all_goals
      rw [heq] at hnext
      exact (List.cons.inj hnext).2
  · rintro ⟨⟨hguards, hn⟩, rfl⟩
    rw [hsame hguards]
    have hsmall : n = 0 ∨ n = 1 := by omega
    rcases hsmall with rfl | rfl <;> rfl

/-- At the end an escaped text is shown as it is if and only if its slashes guard tags only and a
slash at its end is not the only one. -/
theorem render_escape_iff :
    render (escape s) = s ↔ GuardsTags s ∧ (['\\'] <:+ s → ['\\', '\\'] <:+ s) := by
  obtain ⟨body, shown, n, rfl, hlast, hshown, hsame, hother⟩ := exists_shown s
  have hone : ['\\'] <:+ body ++ List.replicate n '\\' ↔ 1 ≤ n :=
    replicate_suffix_iff hlast (m := 1)
  have htwo : ['\\', '\\'] <:+ body ++ List.replicate n '\\' ↔ 2 ≤ n :=
    replicate_suffix_iff hlast (m := 2)
  have hall := hshown [] (by rintro _ ⟨⟩)
  rw [List.append_nil, List.append_nil, escape_replicate,
    render_of_slashes (afterSlashes_replicate _)] at hall
  rw [hall, hone, htwo]
  constructor
  · intro heq
    have hguards : GuardsTags (body ++ List.replicate n '\\') := by
      by_contra hne
      exact hother hne _ _ heq
    rw [hsame hguards, List.append_cancel_left_eq] at heq
    have hlength := congrArg List.length heq
    rw [List.length_replicate, List.length_replicate] at hlength
    refine ⟨hguards, ?_⟩
    split at hlength <;> omega
  · rintro ⟨hguards, hn⟩
    rw [hsame hguards, if_neg (by omega)]

/-- A text without slashes is shown as it is in front of a tag. -/
theorem render_escape_append (hs : '\\' ∉ s) (htag : tag? tag = some (tag, [])) :
    render (escape s ++ tag) = s := by
  have hguards : GuardsTags s := fun t ht => absurd (ht.subset List.mem_cons_self) hs
  have hend : ¬ ['\\', '\\'] <:+ s := fun h => hs (h.subset List.mem_cons_self)
  exact List.append_cancel_right
    ((render_escape_append_iff htag (d := ':') (by decide) [] []).2 ⟨⟨hguards, hend⟩, rfl⟩)

end SourceNotes.Markup
