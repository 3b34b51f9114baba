/-
What markup is shown as.

A complete tag takes no part in what comes before it or behind it, so that what is shown in front
of one does not depend on what follows.

* **`Markup.render_append`** — what is shown before and behind a complete tag;
* **`Markup.mem_of_mem_render`**, **`Markup.mem_of_mem_escape`** — nothing but backslashes is added.
-/
import Mathlib.Data.List.TakeWhile
import SourceNotes.Report.Markup

namespace SourceNotes.Markup

variable {s rest tag : Text} {c d : Char}

/-! ### Slashes -/

theorem slashes_cons_of_ne (hc : c ≠ '\\') (s : Text) : slashes (c :: s) = 0 := by
  rw [slashes, List.takeWhile_cons_of_neg (by simpa using hc)]
  rfl

theorem afterSlashes_cons_of_ne (hc : c ≠ '\\') (s : Text) : afterSlashes (c :: s) = c :: s := by
  rw [afterSlashes, List.dropWhile_cons_of_neg (by simpa using hc)]

theorem replicate_append_afterSlashes (s : Text) :
    List.replicate (slashes s) '\\' ++ afterSlashes s = s := by
  have hall : s.takeWhile (· = '\\') = List.replicate (slashes s) '\\' := by
    refine List.eq_replicate_iff.2 ⟨rfl, fun c hc => ?_⟩
    have hslash := List.mem_takeWhile_imp hc
    exact of_decide_eq_true hslash
  rw [← hall]
  exact List.takeWhile_append_dropWhile

/-- In a text there are slashes only, or slashes before a tag, or slashes before something else. -/
theorem induct {P : Text → Prop} (slashes : ∀ s, afterSlashes s = [] → P s)
    (tag : ∀ s tag rest, tag? (afterSlashes s) = some (tag, rest) → P rest → P s)
    (other : ∀ s d rest, tag? (afterSlashes s) = none → afterSlashes s = d :: rest → P rest → P s)
    (s : Text) : P s := by
  induction hn : s.length using Nat.strongRecOn generalizing s with
  | ind n ih =>
    subst hn
    cases htag : tag? (afterSlashes s) with
    | some parts => exact tag s _ _ htag (ih _ (rest_length_of_tag htag) _ rfl)
    | none =>
      cases hafter : afterSlashes s with
      | nil => exact slashes s hafter
      | cons d rest =>
        have hle := afterSlashes_length_le s
        rw [hafter, List.length_cons] at hle
        exact other s d rest htag hafter (ih _ hle _ rfl)

/-! ### Cases of writing and showing -/

theorem tag?_nil : tag? [] = none := by
  rw [tag?]
  simp

theorem render_of_tag (h : tag? (afterSlashes s) = some (tag, rest)) :
    render s = List.replicate (slashes s / 2) '\\' ++
      (if slashes s % 2 = 1 then tag else []) ++ render rest := by
  rw [render]
  split
  · next heq =>
    rw [h] at heq
    cases heq
    rfl
  · next heq =>
    rw [h] at heq
    cases heq

/-- Where no tag follows, the character behind the slashes is shown. -/
theorem render_of_none (h : tag? (afterSlashes s) = none) (hafter : afterSlashes s = d :: rest) :
    render s = List.replicate (if d = '[' then slashes s - 1 else slashes s) '\\' ++
      d :: render rest := by
  rw [render]
  split
  · next heq =>
    rw [h] at heq
    cases heq
  · cases s with
    | nil => cases hafter
    | cons c s =>
      dsimp only
      split
      · split
        · next heq =>
          rw [hafter] at heq
          cases heq
        · next heq =>
          rw [hafter] at heq
          cases heq
          rfl
      · next hc =>
        rw [afterSlashes_cons_of_ne hc] at hafter
        cases hafter
        rw [slashes_cons_of_ne hc]
        split <;> rfl

theorem render_of_slashes (h : afterSlashes s = []) : render s = s := by
  rw [render]
  split
  · next heq =>
    rw [h, tag?_nil] at heq
    cases heq
  · cases s with
    | nil => rfl
    | cons c s =>
      dsimp only
      split
      · split
        · rfl
        · next heq =>
          rw [h] at heq
          cases heq
      · next hc =>
        rw [afterSlashes_cons_of_ne hc] at h
        cases h

theorem escapeTags_of_tag (h : tag? (afterSlashes s) = some (tag, rest)) :
    escapeTags s = List.replicate (2 * slashes s + 1) '\\' ++ tag ++ escapeTags rest := by
  rw [escapeTags]
  split
  · next heq =>
    rw [h] at heq
    cases heq
    rfl
  · next heq =>
    rw [h] at heq
    cases heq

theorem escapeTags_of_none (h : tag? (afterSlashes s) = none)
    (hafter : afterSlashes s = d :: rest) :
    escapeTags s = List.replicate (slashes s) '\\' ++ d :: escapeTags rest := by
  rw [escapeTags]
  split
  · next heq =>
    rw [h] at heq
    cases heq
  · cases s with
    | nil => cases hafter
    | cons c s =>
      dsimp only
      split
      · split
        · next heq =>
          rw [hafter] at heq
          cases heq
        · next heq =>
          rw [hafter] at heq
          cases heq
          rfl
      · next hc =>
        rw [afterSlashes_cons_of_ne hc] at hafter
        cases hafter
        rw [slashes_cons_of_ne hc]
        rfl

theorem escapeTags_of_slashes (h : afterSlashes s = []) : escapeTags s = s := by
  rw [escapeTags]
  split
  · next heq =>
    rw [h, tag?_nil] at heq
    cases heq
  · cases s with
    | nil => rfl
    | cons c s =>
      dsimp only
      split
      · split
        · rfl
        · next heq =>
          rw [h] at heq
          cases heq
      · next hc =>
        rw [afterSlashes_cons_of_ne hc] at h
        cases h

@[simp]
theorem render_nil : render [] = [] := render_of_slashes rfl

@[simp]
theorem escapeTags_nil : escapeTags [] = [] := escapeTags_of_slashes rfl

/-! ### Tags -/

/-- A tag is made of brackets and what is between them. -/
theorem tag?_eq_some_iff : tag? s = some (tag, rest) ↔
    ∃ c inner, isTagStart c = true ∧ (∀ d ∈ inner, d ≠ '[' ∧ d ≠ ']') ∧
      tag = '[' :: c :: (inner ++ [']']) ∧ s = tag ++ rest := by
  constructor
  · intro h
    unfold tag? at h
    split at h
    · next c s =>
      split at h
      · next hstart =>
        split at h
        · next rest' hrest =>
          have hsplit := List.takeWhile_append_dropWhile (p := fun d => d ≠ '[' ∧ d ≠ ']') (l := s)
          rw [hrest] at hsplit
          cases h
          refine ⟨c, _, hstart, fun d hd => ?_, rfl, ?_⟩
          · have hinner := List.mem_takeWhile_imp hd
            exact of_decide_eq_true hinner
          · simp only [List.cons_append, List.append_assoc, List.nil_append]
            rw [hsplit]
        · cases h
      · cases h
    · cases h
  · rintro ⟨c, inner, hstart, hinner, rfl, rfl⟩
    have hpos : ∀ d ∈ inner, decide (d ≠ '[' ∧ d ≠ ']') = true :=
      fun d hd => decide_eq_true (hinner d hd)
    have htext : '[' :: c :: (inner ++ [']']) ++ rest = '[' :: c :: (inner ++ ']' :: rest) := by
      simp
    rw [htext, tag?, if_pos hstart, List.dropWhile_append_of_pos hpos,
      List.takeWhile_append_of_pos hpos, List.dropWhile_cons_of_neg (by decide),
      List.takeWhile_cons_of_neg (by decide), List.append_nil]
    rfl

/-- A bracket that opens cannot stand inside a tag, so that none goes on behind it. -/
theorem tag?_append (hs : s ≠ []) (t : Text) :
    tag? (s ++ '[' :: t) = (tag? s).map fun parts => (parts.1, parts.2 ++ '[' :: t) := by
  cases htag : tag? s with
  | some parts =>
    obtain ⟨tag, rest⟩ := parts
    obtain ⟨c, inner, hstart, hinner, heq, hs'⟩ := tag?_eq_some_iff.1 htag
    refine tag?_eq_some_iff.2 ⟨c, inner, hstart, hinner, heq, ?_⟩
    rw [hs', List.append_assoc]
  | none =>
    by_contra hne
    obtain ⟨⟨tag, rest⟩, hsome⟩ := Option.ne_none_iff_exists'.1 hne
    obtain ⟨c, inner, hstart, hinner, rfl, htext⟩ := tag?_eq_some_iff.1 hsome
    obtain ⟨b, s, rfl⟩ := List.exists_cons_of_ne_nil hs
    rcases s with _ | ⟨e, s⟩
    · obtain ⟨-, htail⟩ := List.cons.inj htext
      obtain ⟨rfl, -⟩ := List.cons.inj htail
      exact absurd hstart (by decide)
    obtain ⟨rfl, htail⟩ := List.cons.inj htext
    obtain ⟨rfl, -⟩ := List.cons.inj htail
    have hparts : s ++ '[' :: t = inner ++ (']' :: rest) := by simpa using htext
    rcases List.append_eq_append_iff.1 hparts with ⟨u, hinner', hu⟩ | ⟨u, hs', hu⟩
    · -- The opening bracket would have to be inside the tag.
      cases u with
      | nil => cases hu
      | cons f u =>
        cases hu
        exact (hinner '[' (by rw [hinner']; simp)).1 rfl
    · -- The whole tag would have to be there before.
      cases u with
      | nil => cases hu
      | cons f u =>
        cases hu
        have hfound : tag? ('[' :: e :: s) = some ('[' :: e :: (inner ++ [']']), u) :=
          tag?_eq_some_iff.2 ⟨e, inner, hstart, hinner, rfl, by rw [hs']; simp⟩
        rw [hfound] at htag
        cases htag

theorem afterSlashes_append (s t : Text) :
    afterSlashes (s ++ '[' :: t) = afterSlashes s ++ '[' :: t := by
  induction s with
  | nil => rfl
  | cons c s ih =>
    by_cases hc : c = '\\'
    · subst hc
      exact ih
    · rw [List.cons_append, afterSlashes_cons_of_ne hc, afterSlashes_cons_of_ne hc,
        List.cons_append]

theorem slashes_append (s t : Text) : slashes (s ++ '[' :: t) = slashes s := by
  have h := congrArg List.length (replicate_append_afterSlashes (s ++ '[' :: t))
  have h' := congrArg List.length (replicate_append_afterSlashes s)
  rw [afterSlashes_append] at h
  simp only [List.length_append, List.length_replicate] at h h'
  omega

theorem ne_nil_of_tag (h : tag? s = some (tag, rest)) : s ≠ [] := by
  rintro rfl
  rw [tag?_nil] at h
  cases h

/-- What comes behind a complete tag is no part of it. -/
theorem tag?_complete (htag : tag? tag = some (tag, [])) (t : Text) :
    tag? (tag ++ t) = some (tag, t) := by
  obtain ⟨c, inner, hstart, hinner, heq, -⟩ := tag?_eq_some_iff.1 htag
  exact tag?_eq_some_iff.2 ⟨c, inner, hstart, hinner, heq, rfl⟩

theorem exists_bracket (h : tag? s = some (tag, rest)) : ∃ t, tag = '[' :: t := by
  obtain ⟨c, inner, -, -, rfl, -⟩ := tag?_eq_some_iff.1 h
  exact ⟨_, rfl⟩

/-- A tag at the start is left out. -/
theorem render_tag_append (htag : tag? tag = some (tag, [])) (t : Text) :
    render (tag ++ t) = render t := by
  obtain ⟨t', heq⟩ := exists_bracket htag
  have hsame : afterSlashes (tag ++ t) = tag ++ t := by
    rw [heq]
    exact afterSlashes_cons_of_ne (by decide) _
  have hnone : slashes (tag ++ t) = 0 := by
    rw [heq]
    exact slashes_cons_of_ne (by decide) _
  rw [render_of_tag (by rw [hsame, tag?_complete htag]), hnone]
  rfl

/-- What is shown up to a complete tag does not depend on what comes behind it. -/
theorem render_append (htag : tag? tag = some (tag, [])) (s u : Text) :
    render (s ++ (tag ++ u)) = render (s ++ tag) ++ render u := by
  obtain ⟨t, rfl⟩ := exists_bracket htag
  induction s using induct with
  | slashes s h =>
    have hleft : tag? (afterSlashes (s ++ '[' :: (t ++ u))) = some ('[' :: t, u) := by
      rw [afterSlashes_append, h]
      exact tag?_complete htag u
    have hright : tag? (afterSlashes (s ++ '[' :: t)) = some ('[' :: t, []) := by
      rw [afterSlashes_append, h]
      exact htag
    rw [List.cons_append, render_of_tag hleft, render_of_tag hright, slashes_append, slashes_append,
      render_nil, List.append_nil]
  | tag s tag rest h ih =>
    have hinner (v : Text) :
        tag? (afterSlashes (s ++ '[' :: v)) = some (tag, rest ++ '[' :: v) := by
      rw [afterSlashes_append, tag?_append (ne_nil_of_tag h), h]
      rfl
    rw [List.cons_append] at ih ⊢
    rw [render_of_tag (hinner (t ++ u)), render_of_tag (hinner t), slashes_append, slashes_append,
      ih, List.append_assoc, List.append_assoc, List.append_assoc]
  | other s d rest h hafter ih =>
    have hinner (v : Text) : tag? (afterSlashes (s ++ '[' :: v)) = none := by
      rw [afterSlashes_append, tag?_append (by rw [hafter]; exact List.cons_ne_nil _ _), h]
      rfl
    have hbehind (v : Text) : afterSlashes (s ++ '[' :: v) = d :: (rest ++ '[' :: v) := by
      rw [afterSlashes_append, hafter]
      rfl
    rw [List.cons_append] at ih ⊢
    rw [render_of_none (hinner (t ++ u)) (hbehind (t ++ u)), render_of_none (hinner t) (hbehind t),
      slashes_append, slashes_append, ih, List.append_assoc]
    rfl

/-! ### Text without tags -/

/-- Text without brackets and slashes is shown as it is. -/
theorem render_append_of_plain {t : Text} (hs : '\\' ∉ s) (hbracket : '[' ∉ s) :
    render (s ++ t) = s ++ render t := by
  induction s with
  | nil => rfl
  | cons c s ih =>
    rw [List.mem_cons, not_or] at hs hbracket
    have hsame := afterSlashes_cons_of_ne (Ne.symm hs.1) (s ++ t)
    have hnone : tag? (afterSlashes (c :: (s ++ t))) = none := by
      rw [hsame]
      by_contra hne
      obtain ⟨parts, hsome⟩ := Option.ne_none_iff_exists'.1 hne
      obtain ⟨e, inner, -, -, heq, hcons⟩ := tag?_eq_some_iff.1 hsome
      rw [heq] at hcons
      exact hbracket.1 (List.cons.inj hcons).1.symm
    rw [List.cons_append, render_of_none hnone hsame, slashes_cons_of_ne (Ne.symm hs.1),
      ih hs.2 hbracket.2]
    simp

/-- Such a text between two tags. -/
theorem render_between {opening closing : Text} (hopening : tag? opening = some (opening, []))
    (hclosing : tag? closing = some (closing, [])) (hs : '\\' ∉ s) (hbracket : '[' ∉ s) (t : Text) :
    render (opening ++ (s ++ (closing ++ t))) = s ++ render t := by
  rw [render_tag_append hopening, render_append_of_plain hs hbracket, render_tag_append hclosing]

/-! ### What is added -/

theorem mem_of_mem_afterSlashes (h : c ∈ afterSlashes s) : c ∈ s :=
  (List.dropWhile_suffix _).subset h

theorem mem_of_mem_tag (h : tag? s = some (tag, rest)) (hc : c ∈ tag ∨ c ∈ rest) : c ∈ s := by
  obtain ⟨-, -, -, -, -, rfl⟩ := tag?_eq_some_iff.1 h
  exact List.mem_append.2 hc

/-- What works off a text like a markup, and keeps tags or not, adds nothing but slashes. -/
theorem mem_of_mem_of_steps {f : Text → Text} (slashes : ∀ s, afterSlashes s = [] → f s = s)
    (tag : ∀ s tag rest, tag? (afterSlashes s) = some (tag, rest) →
      ∃ n kept, f s = List.replicate n '\\' ++ kept ++ f rest ∧ kept ⊆ tag)
    (other : ∀ s d rest, tag? (afterSlashes s) = none → afterSlashes s = d :: rest →
      ∃ n, f s = List.replicate n '\\' ++ d :: f rest)
    (h : c ∈ f s) : c = '\\' ∨ c ∈ s := by
  induction s using induct with
  | slashes s hslashes =>
    rw [slashes s hslashes] at h
    exact .inr h
  | tag s found rest htag ih =>
    obtain ⟨n, kept, hs, hkept⟩ := tag s found rest htag
    rw [hs, List.append_assoc, List.mem_append, List.mem_append] at h
    rcases h with hslash | hmem | hrest
    · exact .inl (List.eq_of_mem_replicate hslash)
    · exact .inr (mem_of_mem_afterSlashes (mem_of_mem_tag htag (.inl (hkept hmem))))
    · exact (ih hrest).imp_right fun hmem =>
        mem_of_mem_afterSlashes (mem_of_mem_tag htag (.inr hmem))
  | other s d rest htag hafter ih =>
    have hmem : ∀ e ∈ d :: rest, e ∈ s := by
      intro e he
      rw [← hafter] at he
      exact mem_of_mem_afterSlashes he
    obtain ⟨n, hs⟩ := other s d rest htag hafter
    rw [hs, List.mem_append, List.mem_cons] at h
    rcases h with hslash | rfl | hrest
    · exact .inl (List.eq_of_mem_replicate hslash)
    · exact .inr (hmem c List.mem_cons_self)
    · exact (ih hrest).imp_right fun hc => hmem c (List.mem_cons_of_mem d hc)

theorem mem_of_mem_render (h : c ∈ render s) : c = '\\' ∨ c ∈ s := by
  refine mem_of_mem_of_steps (fun _ => render_of_slashes) (fun s tag rest htag => ?_)
    (fun s d rest htag hafter => ⟨_, render_of_none htag hafter⟩) h
  refine ⟨_, _, render_of_tag htag, ?_⟩
  split
  · exact List.Subset.refl tag
  · exact List.nil_subset tag

theorem mem_of_mem_escape (h : c ∈ escape s) : c = '\\' ∨ c ∈ s := by
  have htags (hc : c ∈ escapeTags s) : c = '\\' ∨ c ∈ s :=
    mem_of_mem_of_steps (fun _ => escapeTags_of_slashes)
      (fun _ tag _ htag => ⟨_, tag, escapeTags_of_tag htag, List.Subset.refl tag⟩)
      (fun _ _ _ htag hafter => ⟨_, escapeTags_of_none htag hafter⟩) hc
  rw [escape] at h
  split at h
  · rcases List.mem_append.1 h with hmem | hlast
    · exact htags hmem
    · exact .inl (List.mem_singleton.1 hlast)
  · exact htags h

end SourceNotes.Markup
