/-
Writing patterns of ignore files.

Not every pattern can be said by a line: slashes at the ends of a glob and blanks behind it are lost
in reading, and a slash within it ties the pattern to its folder. All other patterns can be written,
whatever their glob begins with, for a mark in front keeps it from being read as something else.

* **`Pattern.WellFormed`** — the patterns that lines can say;
* **`Pattern.toLine`** — a line that says a pattern;
* **`Pattern.ofLine_iff_wellFormed`** — what can be read is what is well-formed, and it is read back
  from its line, whatever slashes and blanks follow.
-/
import Mathlib.Data.List.DropRight
import SourceNotes.Ignore.Pattern

namespace SourceNotes.Text

variable {α : Type} {p : α → Bool} {s t : List α} {c : α}

theorem dropEndWhile_append_of_all (h : ∀ c ∈ t, p c = true) :
    dropEndWhile p (s ++ t) = dropEndWhile p s := by
  have hback : ∀ c ∈ t.reverse, p c = true := fun c hc => h c (List.mem_reverse.1 hc)
  rw [dropEndWhile, dropEndWhile, List.reverse_append, List.dropWhile_append_of_pos hback]

theorem dropEndWhile_eq_self (h : ∀ c, s.getLast? = some c → p c = false) :
    dropEndWhile p s = s := by
  refine List.rdropWhile_eq_self_iff.2 fun hs => ?_
  rw [h _ (List.getLast?_eq_some_getLast hs)]
  exact Bool.false_ne_true

theorem getLast?_dropEndWhile (h : (dropEndWhile p s).getLast? = some c) : p c = false := by
  have hs : dropEndWhile p s ≠ [] := by
    rintro hnil
    rw [hnil] at h
    cases h
  rw [List.getLast?_eq_some_getLast hs] at h
  cases h
  exact Bool.eq_false_iff.2 (List.rdropWhile_last_not p s hs)

theorem getLast?_of_suffix (h : s <:+ t) (hs : s ≠ []) : s.getLast? = t.getLast? := by
  obtain ⟨front, rfl⟩ := h
  exact (List.getLast?_append_of_ne_nil front hs).symm

end SourceNotes.Text

namespace SourceNotes.Ignore.Pattern

open Text

variable {p : Pattern} {base : Path} {line body : Text} {mark : Char} {n : Nat}

/-- The patterns that lines can say. -/
structure WellFormed (p : Pattern) : Prop where
  ne_nil : p.glob ≠ []
  head_ne : p.glob.head? ≠ some '/'
  last_ne : p.glob.getLast? ≠ some '/'
  /-- A slash in the glob ties the pattern to its folder. -/
  anchored : '/' ∈ p.glob → p.anchored = true
  /-- Blanks at the end count only in front of a slash. -/
  folderOnly : ∀ c, p.glob.getLast? = some c → isBlank c = true → p.folderOnly = true

/-- The slash in front of a glob that has none and is tied to its folder. -/
def anchor (p : Pattern) : Text := if p.anchored = true ∧ '/' ∉ p.glob then ['/'] else []

/-- A line that says a pattern. A mark keeps what follows it from any meaning of its own. -/
def toLine (p : Pattern) : Text :=
  (if p.negated then '!' else '\\') ::
    (p.anchor ++ p.glob ++ if p.folderOnly then ['/'] else [])

/-! ### Reading -/

/-- What is read behind the mark, or in a line without one. -/
def ofBody (negated : Bool) (body : Text) (base : Path) : Option Pattern :=
  let named := dropEndWhile (· = '/') body
  let glob := named.dropWhile (· = '/')
  if glob = [] then none
  else some
    { glob, base, negated, folderOnly := body.getLast? = some '/', anchored := '/' ∈ named }

theorem ofLine_of_mark (hline : trimEnd line = mark :: body) (hmark : mark = '!' ∨ mark = '\\') :
    ofLine line base = ofBody (mark = '!') body base := by
  unfold ofLine ofBody
  rcases hmark with rfl | rfl <;> simp [hline]

/-- A line is read behind its mark, or as it stands. -/
theorem exists_ofBody (h : ofLine line base = some p) :
    ∃ negated body, ofBody negated body base = some p ∧ body <:+ trimEnd line := by
  unfold ofLine at h
  dsimp only at h
  split at h
  · cases h
  · refine ⟨_, _, h, ?_⟩
    split
    · exact List.tail_suffix _
    · exact List.suffix_refl _

theorem wellFormed_of_ofBody {negated : Bool} (h : ofBody negated body base = some p)
    (hlast : ∀ c, body.getLast? = some c → isBlank c = false) : p.WellFormed ∧ p.base = base := by
  unfold ofBody at h
  dsimp only at h
  split at h
  · cases h
  next hne =>
    cases h
    have hsuffix := List.dropWhile_suffix (· = '/') (l := dropEndWhile (· = '/') body)
    have hend := getLast?_of_suffix hsuffix hne
    refine ⟨⟨hne, fun hhead => ?_, fun hslash => ?_, fun hmem => ?_, fun c hc hblank => ?_⟩, rfl⟩
    · have hfirst := List.head?_dropWhile_not (· = '/') (dropEndWhile (· = '/') body)
      rw [hhead] at hfirst
      exact absurd hfirst (by decide)
    · rw [hend] at hslash
      exact absurd (getLast?_dropEndWhile hslash) (by decide)
    · exact decide_eq_true (hsuffix.subset hmem)
    · -- Where no slash follows, the blank would be at the end of the line.
      refine decide_eq_true (by_contra fun hslash => ?_)
      have hall : dropEndWhile (· = '/') body = body :=
        dropEndWhile_eq_self fun d hd => decide_eq_false fun heq => hslash (heq ▸ hd)
      rw [hend, hall] at hc
      rw [hlast c hc] at hblank
      cases hblank

/-- What is read from a line is well-formed. -/
theorem wellFormed_of_ofLine (h : ofLine line base = some p) : p.WellFormed ∧ p.base = base := by
  obtain ⟨negated, body, hbody, hsuffix⟩ := exists_ofBody h
  refine wellFormed_of_ofBody hbody fun c hc => ?_
  have hne : body ≠ [] := by
    rintro rfl
    cases hc
  rw [getLast?_of_suffix hsuffix hne, trimEnd] at hc
  exact getLast?_dropEndWhile hc

/-! ### Reading what was written -/

/-- The slash in front is not part of the glob. -/
theorem dropWhile_anchor_append (h : p.WellFormed) :
    (p.anchor ++ p.glob).dropWhile (· = '/') = p.glob := by
  have hglob : p.glob.dropWhile (· = '/') = p.glob := by
    obtain ⟨c, rest, hcons⟩ := List.exists_cons_of_ne_nil h.ne_nil
    have hc : c ≠ '/' := fun hc => h.head_ne (by rw [hcons, hc]; rfl)
    rw [hcons, List.dropWhile_cons_of_neg (by simpa using hc)]
  unfold anchor
  split
  · rw [List.singleton_append, List.dropWhile_cons_of_pos (by decide), hglob]
  · rw [List.nil_append, hglob]

/-- There is a slash in front of a glob or in it if it is tied to its folder. -/
theorem mem_anchor_append (h : p.WellFormed) :
    '/' ∈ p.anchor ++ p.glob ↔ p.anchored = true := by
  unfold anchor
  split
  · next hlone => exact iff_of_true List.mem_cons_self hlone.1
  · next hlone =>
    rw [List.nil_append]
    exact ⟨h.anchored, fun hanchored => by_contra fun hmem => hlone ⟨hanchored, hmem⟩⟩

/-- A well-formed pattern is read from its glob and the slashes around it. -/
theorem ofBody_of_wellFormed (h : p.WellFormed) (hn : n ≠ 0 ↔ p.folderOnly = true) :
    ofBody p.negated (p.anchor ++ p.glob ++ List.replicate n '/') p.base = some p := by
  have hlast : (p.anchor ++ p.glob).getLast? ≠ some '/' := by
    rw [List.getLast?_append_of_ne_nil _ h.ne_nil]
    exact h.last_ne
  have hnamed : dropEndWhile (· = '/') (p.anchor ++ p.glob ++ List.replicate n '/') =
      p.anchor ++ p.glob := by
    rw [dropEndWhile_append_of_all fun c hc => decide_eq_true (List.eq_of_mem_replicate hc)]
    refine dropEndWhile_eq_self fun c hc => decide_eq_false ?_
    rintro rfl
    exact hlast hc
  have hanchored : decide ('/' ∈ p.anchor ++ p.glob) = p.anchored := by
    rw [Bool.eq_iff_iff, decide_eq_true_iff, mem_anchor_append h]
  have hfolder : decide ((p.anchor ++ p.glob ++ List.replicate n '/').getLast? = some '/') =
      p.folderOnly := by
    rw [Bool.eq_iff_iff, decide_eq_true_iff, ← hn]
    cases n with
    | zero => simpa using hlast
    | succ n => simp [List.replicate_succ', ← List.append_assoc]
  unfold ofBody
  simp only [hnamed, dropWhile_anchor_append h, hanchored, hfolder, if_neg h.ne_nil]

/-- A line does not end in a blank, for blanks stand in front of a slash only. -/
theorem not_blank_of_last (h : p.WellFormed) (hn : n ≠ 0 ↔ p.folderOnly = true) {c : Char}
    (hc : (p.anchor ++ p.glob ++ List.replicate n '/').getLast? = some c) : isBlank c = false := by
  cases n with
  | zero =>
    rw [List.replicate_zero, List.append_nil, List.getLast?_append_of_ne_nil _ h.ne_nil] at hc
    exact Bool.eq_false_iff.2 fun hblank => hn.2 (h.folderOnly c hc hblank) rfl
  | succ n =>
    rw [List.replicate_succ', ← List.append_assoc, List.getLast?_concat] at hc
    cases hc
    decide

/-- A pattern is read from its line, with further slashes where there is one, and then blanks. -/
theorem ofLine_toLine (h : p.WellFormed) (n : Nat) (hn : n ≠ 0 → p.folderOnly = true)
    (blanks : Text) (hblanks : ∀ c ∈ blanks, isBlank c = true) :
    ofLine (p.toLine ++ List.replicate n '/' ++ blanks) p.base = some p := by
  obtain ⟨m, hm, hline⟩ : ∃ m, (m ≠ 0 ↔ p.folderOnly = true) ∧ p.toLine ++ List.replicate n '/' =
      (if p.negated then '!' else '\\') :: (p.anchor ++ p.glob ++ List.replicate m '/') := by
    by_cases hfolder : p.folderOnly = true
    · exact ⟨n + 1, by simp [hfolder], by simp [toLine, hfolder, List.replicate_succ]⟩
    · have hnone : n = 0 := not_imp_comm.1 hn hfolder
      exact ⟨0, by simp [hfolder], by simp [toLine, hfolder, hnone]⟩
  have hbody : p.anchor ++ p.glob ++ List.replicate m '/' ≠ [] := by simp [h.ne_nil]
  have htrim : trimEnd (p.toLine ++ List.replicate n '/' ++ blanks) =
      (if p.negated then '!' else '\\') :: (p.anchor ++ p.glob ++ List.replicate m '/') := by
    rw [trimEnd, dropEndWhile_append_of_all hblanks, hline]
    refine dropEndWhile_eq_self fun c hc => not_blank_of_last h hm ?_
    rwa [← List.singleton_append, List.getLast?_append_of_ne_nil _ hbody] at hc
  have hmark : decide ((if p.negated then '!' else '\\') = '!') = p.negated := by
    cases p.negated <;> rfl
  rw [ofLine_of_mark htrim (by cases p.negated <;> simp), hmark]
  exact ofBody_of_wellFormed h hm

/-- The patterns that can be read from lines are those that are well-formed. Each is read back from
its line, also when slashes follow that one has already, and then blanks. -/
theorem ofLine_iff_wellFormed (base : Path) :
    (∀ p, (∃ line, ofLine line base = some p) ↔ p.WellFormed ∧ p.base = base) ∧
      ∀ p : Pattern, p.WellFormed → p.base = base → ∀ (n : Nat) (blanks : Text),
        (n ≠ 0 → p.folderOnly = true) → (∀ c ∈ blanks, isBlank c = true) →
          ofLine (p.toLine ++ List.replicate n '/' ++ blanks) base = some p := by
  constructor
  · intro p
    constructor
    · rintro ⟨line, hline⟩
      exact wellFormed_of_ofLine hline
    · rintro ⟨h, rfl⟩
      exact ⟨_, ofLine_toLine h 0 (fun hn => absurd rfl hn) [] (by simp)⟩
  · rintro p h rfl n blanks hn hblanks
    exact ofLine_toLine h n hn blanks hblanks

/-- A glob with a blank at its end and without a slash, for folders only, which is tied to its
folder and takes them in again. -/
def backup : Pattern where
  glob := "#a ".toList
  base := { names := ["src".toList] }
  negated := true
  folderOnly := true
  anchored := true

theorem ofLine_iff_wellFormed_backup :
    backup.WellFormed ∧ backup.toLine = "!/#a /".toList ∧
      ofLine "!/#a /// \t\n".toList backup.base = some backup := by
  have hwell : backup.WellFormed :=
    ⟨by decide, by decide, by decide, fun _ => rfl, fun _ _ _ => rfl⟩
  refine ⟨hwell, by decide, ?_⟩
  exact (ofLine_iff_wellFormed backup.base).2 backup hwell rfl 2 " \t\n".toList (fun _ => rfl)
    (List.all_eq_true.1 (by decide))

end SourceNotes.Ignore.Pattern
