/-
What is printed for a note is one line.

A path and a text without newlines are printed on one line, in any format. The line begins with what
tells the file and the line of the note, and that does not depend on the text behind it.

* **`Screen.line`** — a line as it is printed;
* **`Json.noControls`** — a text that is printed as it is, as objects are when they are encoded;
* **`Format.lead`** — what the line of a note begins with;
* **`Format.exists_line`** — a note is printed as one line, which begins with its lead;
* **`Format.line_lead`** — the lead is printed as it is if there is nothing in the path to fill or
  to drop.
-/
import SourceNotes.Proofs.Report.Escape
import SourceNotes.Proofs.Text.Pieces
import SourceNotes.Report.Format

namespace SourceNotes

variable {s path : Text} {c : Char} {n : Note}

/-! ### Layout -/

namespace Screen

/-- A text that is one line, as it is printed. -/
def line (s : Text) : Text := expandTabs (Text.pieces '\t' (s.filter fun c => !isDropped c))

/-- Whether nothing in a text is filled up or dropped when it is printed. -/
def isPlain (s : Text) : Bool := s.all fun c => c != '\t' && !isDropped c

theorem isPlain_iff : isPlain s = true ↔ ∀ c ∈ s, c ≠ '\t' ∧ isDropped c = false := by
  simp [isPlain]

theorem isPlain_append {t : Text} :
    isPlain (s ++ t) = true ↔ isPlain s = true ∧ isPlain t = true := by
  rw [isPlain, isPlain, isPlain, List.all_append, Bool.and_eq_true]

theorem layout_eq (h : '\n' ∉ s) : layout s = line s ++ ['\n'] := by
  have hkept : '\n' ∉ s.filter fun c => !isDropped c := fun hmem => h (List.mem_filter.1 hmem).1
  rw [layout, Text.pieces_of_not_mem hkept]
  rfl

theorem expandTabs_cons {before : Text} {ps : List Text} (h : ps ≠ []) :
    expandTabs (before :: ps) = fillTab before ++ expandTabs ps := by
  obtain ⟨p, ps, rfl⟩ := List.exists_cons_of_ne_nil h
  rfl

theorem mem_of_mem_fillTab (h : c ∈ fillTab s) : c = ' ' ∨ c ∈ s := by
  rw [fillTab] at h
  rcases List.mem_append.1 h with hmem | hfill
  · rcases List.mem_append.1 hmem with hbefore | htab
    · exact .inr hbefore
    · exact .inl (List.mem_singleton.1 htab)
  · exact .inl (List.eq_of_mem_replicate hfill)

theorem mem_of_mem_expandTabs {ps : List Text} (h : c ∈ expandTabs ps) :
    c = ' ' ∨ ∃ p ∈ ps, c ∈ p := by
  induction ps with
  | nil => cases h
  | cons p ps ih =>
    by_cases hps : ps = []
    · subst hps
      exact .inr ⟨p, List.mem_cons_self, h⟩
    · rw [expandTabs_cons hps, List.mem_append] at h
      rcases h with hp | hrest
      · exact (mem_of_mem_fillTab hp).imp_right fun hmem => ⟨p, List.mem_cons_self, hmem⟩
      · refine (ih hrest).imp_right ?_
        rintro ⟨q, hq, hmem⟩
        exact ⟨q, List.mem_cons_of_mem p hq, hmem⟩

/-- Nothing but blanks is added. -/
theorem mem_of_mem_line (h : c ∈ line s) : c = ' ' ∨ c ∈ s := by
  refine (mem_of_mem_expandTabs h).imp_right ?_
  rintro ⟨p, hp, hmem⟩
  exact (List.mem_filter.1 (Text.mem_of_mem_pieces hp hmem)).1

theorem line_of_plain (h : isPlain s = true) : line s = s := by
  rw [isPlain_iff] at h
  have hall : (s.filter fun c => !isDropped c) = s :=
    List.filter_eq_self.2 fun c hc => by rw [(h c hc).2]; rfl
  rw [line, hall, Text.pieces_of_not_mem fun hmem => (h _ hmem).1 rfl]
  rfl

theorem expandTabs_prefix_append (ps : List Text) (p q : Text) (qs : List Text) :
    expandTabs (ps ++ [p]) <+: expandTabs (ps ++ (p ++ q) :: qs) := by
  induction ps with
  | nil =>
    by_cases hqs : qs = []
    · subst hqs
      exact List.prefix_append p q
    · rw [List.nil_append, List.nil_append, expandTabs_cons hqs, fillTab]
      simp only [List.append_assoc]
      exact List.prefix_append p _
  | cons x ps ih =>
    rw [List.cons_append, List.cons_append, expandTabs_cons (by simp), expandTabs_cons (by simp)]
    exact (List.prefix_append_right_inj (fillTab x)).2 ih

theorem expandTabs_pieces_append (s t : Text) :
    expandTabs (Text.pieces '\t' s) <+: expandTabs (Text.pieces '\t' (s ++ t)) := by
  obtain ⟨ps, p, hs, -, -⟩ := Text.exists_pieces_concat '\t' s
  obtain ⟨q, qs, ht⟩ := List.exists_cons_of_ne_nil (Text.pieces_ne_nil '\t' t)
  rw [Text.pieces_append hs ht, hs]
  exact expandTabs_prefix_append ps p q qs

/-- How a line begins does not depend on how it ends. -/
theorem line_prefix_append (s t : Text) : line s <+: line (s ++ t) := by
  rw [line, line, List.filter_append]
  exact expandTabs_pieces_append _ _

/-- What a text begins with is printed first, also where lines follow. -/
theorem line_prefix_layout (h : '\n' ∉ s) (t : Text) : line s <+: layout (s ++ t) := by
  have hkept : '\n' ∉ s.filter fun c => !isDropped c := fun hmem => h (List.mem_filter.1 hmem).1
  obtain ⟨q, qs, ht⟩ :=
    List.exists_cons_of_ne_nil (Text.pieces_ne_nil '\n' (t.filter fun c => !isDropped c))
  have hs : Text.pieces '\n' (s.filter fun c => !isDropped c) =
      [] ++ [s.filter fun c => !isDropped c] := Text.pieces_of_not_mem hkept
  rw [layout, List.filter_append, Text.pieces_append hs ht, List.nil_append, List.map_cons]
  refine ((expandTabs_pieces_append _ q).trans ?_).trans (List.prefix_append _ _)
  cases qs with
  | nil => exact List.prefix_rfl
  | cons r rs => exact List.prefix_append _ _

end Screen

/-! ### Numbers -/

theorem Format.digits_ofNat (m : Nat) : digits (Int.ofNat m) = Nat.toDigits 10 m := by
  show m.repr.toList = _
  rw [Nat.toList_repr]

theorem Format.digits_negSucc (m : Nat) :
    digits (Int.negSucc m) = '-' :: Nat.toDigits 10 (m + 1) := by
  show ("-" ++ (m + 1).repr).toList = _
  rw [String.toList_append, Nat.toList_repr]
  rfl

theorem Format.mem_digits {i : Int} (h : c ∈ digits i) : c = '-' ∨ c.isDigit = true := by
  have hnat (m : Nat) (hm : c ∈ Nat.toDigits 10 m) : c.isDigit = true :=
    Nat.isDigit_of_mem_toDigits (by decide) (by decide) hm
  cases i with
  | ofNat m =>
    rw [digits_ofNat] at h
    exact .inr (hnat m h)
  | negSucc m =>
    rw [digits_negSucc, List.mem_cons] at h
    exact h.imp_right (hnat _)

theorem Format.not_mem_digits (hsign : c ≠ '-') (hdigit : c.isDigit = false) (i : Int) :
    c ∉ digits i := by
  intro h
  rcases mem_digits h with heq | hmem
  · exact hsign heq
  · rw [hdigit] at hmem
    cases hmem

/-! ### JSON -/

namespace Json

/-- Whether a text holds none of the controls below the space. -/
def noControls (s : Text) : Bool := s.all fun c => 0x20 ≤ c.toNat

theorem noControls_append {t : Text} :
    noControls (s ++ t) = true ↔ noControls s = true ∧ noControls t = true := by
  rw [noControls, noControls, noControls, List.all_append, Bool.and_eq_true]

theorem noControls_cons : noControls (c :: s) = true ↔ 0x20 ≤ c.toNat ∧ noControls s = true := by
  rw [noControls, noControls, List.all_cons, Bool.and_eq_true, decide_eq_true_iff]

theorem noControls_iff : noControls s = true ↔ ∀ c ∈ s, 0x20 ≤ c.toNat := by
  simp [noControls]

theorem newline_not_mem_of_noControls (h : noControls s = true) : '\n' ∉ s := by
  intro hmem
  exact absurd (noControls_iff.1 h _ hmem) (by decide)

/-- Where there are no controls, nothing is filled up or dropped. -/
theorem isPlain_of_noControls (h : noControls s = true) : Screen.isPlain s = true := by
  refine Screen.isPlain_iff.2 fun c hc => ?_
  have hge := noControls_iff.1 h c hc
  have hne {d : Char} (hd : d.toNat < 0x20) : c ≠ d := by
    rintro rfl
    omega
  refine ⟨hne (by decide), ?_⟩
  simp [Screen.isDropped, hne]

theorem noControls_hex (width m : Nat) : noControls (Text.hex width m) = true := by
  have hdigit : ∀ d < 16, 0x20 ≤ (Text.hexDigit d).toNat := by decide
  induction width generalizing m with
  | zero => rfl
  | succ width ih =>
    rw [Text.hex, noControls_append, noControls_cons]
    exact ⟨ih _, hdigit _ (Nat.mod_lt _ (by decide)), rfl⟩

theorem noControls_digits (i : Int) : noControls (Format.digits i) = true := by
  refine noControls_iff.2 fun c hc => ?_
  rcases Format.mem_digits hc with rfl | hdigit
  · decide
  · have hge : 48 ≤ c.toNat := by
      rw [Char.isDigit, Bool.and_eq_true, decide_eq_true_iff] at hdigit
      exact UInt32.le_iff_toNat_le.1 hdigit.1
    omega

theorem noControls_encodeChar (c : Char) : noControls (encodeChar c) = true := by
  unfold encodeChar
  split
  case h_8 =>
    split
    · exact noControls_hex 4 c.toNat
    · next hge => exact noControls_cons.2 ⟨Nat.not_lt.1 hge, rfl⟩
  all_goals rfl

theorem noControls_encodeString (s : Text) : noControls (encodeString s) = true := by
  rw [encodeString, List.cons_append, noControls_cons, noControls_append]
  refine ⟨by decide, ?_, rfl⟩
  refine noControls_iff.2 fun c hc => ?_
  obtain ⟨d, -, hmem⟩ := List.mem_flatMap.1 hc
  exact noControls_iff.1 (noControls_encodeChar d) c hmem

theorem noControls_encodeField (f : Text × Value) : noControls (encodeField f) = true := by
  obtain ⟨key, value⟩ := f
  have hvalue : noControls value.encode = true := by
    cases value with
    | string s => exact noControls_encodeString s
    | int i => exact noControls_digits i
  rw [encodeField, noControls_append, noControls_cons, noControls_cons]
  exact ⟨noControls_encodeString key, by decide, by decide, hvalue⟩

theorem noControls_encodeFields (fs : List (Text × Value)) :
    noControls (encodeFields fs) = true := by
  induction fs with
  | nil => rfl
  | cons f fs ih =>
    cases fs with
    | nil => exact noControls_encodeField f
    | cons g fs =>
      rw [encodeFields, noControls_append, noControls_cons, noControls_cons]
      exact ⟨noControls_encodeField f, by decide, by decide, ih⟩

/-- An object is written without controls: those in its strings are escaped. -/
theorem noControls_encodeObject (fs : List (Text × Value)) :
    noControls (encodeObject fs) = true := by
  rw [encodeObject, List.cons_append, noControls_cons, noControls_append]
  exact ⟨by decide, noControls_encodeFields fs, rfl⟩

/-- An object begins with its first key. -/
theorem key_prefix_encodeObject (key : Text) (value : Value) (fs : List (Text × Value)) :
    '\x7b' :: (encodeString key ++ [':', ' ']) <+: encodeObject ((key, value) :: fs) := by
  have hfields : encodeString key ++ [':', ' '] <+: encodeFields ((key, value) :: fs) := by
    have hfield : encodeString key ++ [':', ' '] <+: encodeField (key, value) :=
      ⟨value.encode, by rw [List.append_assoc]; rfl⟩
    cases fs with
    | nil => exact hfield
    | cons g fs => exact hfield.trans (List.prefix_append _ _)
  exact List.cons_prefix_cons.2 ⟨rfl, hfields.trans (List.prefix_append _ _)⟩

end Json

/-! ### Notes -/

namespace Format

/-- A path as a format shows it: in colours or not. -/
def shown (format : Format) (path : Text) : Text :=
  match format with
  | .plain => Markup.render ("[magenta]".toList ++ Markup.escape path ++ "[/magenta]".toList)
  | .github => path
  | .json => path

/-- What tells the file and the line of a note, at the beginning of its line. -/
def lead (format : Format) (path : Text) (n : Note) : Text :=
  match format with
  | .plain => path ++ ":".toList ++ digits n.line ++ ":".toList
  | .github =>
    "::".toList ++ level n.kind ++ " file=".toList ++ path ++ ",line=".toList ++ digits n.line ++
      "::".toList
  | .json => "\x7b\"path\": ".toList

theorem shown_plain (h : '\\' ∉ path) : shown .plain path = path := by
  unfold shown
  dsimp only
  rw [List.append_assoc, Markup.render_tag_append (by decide)]
  exact Markup.render_escape_append h (by decide)

/-- What is shown of the text of a note stands behind the lead. -/
theorem render_markup (path : Text) (n : Note) :
    Markup.render (markup path n) =
      lead .plain (shown .plain path) n ++ Markup.render (Markup.escape n.text) := by
  have hmiddle : "[/magenta][cyan]:[/cyan][green]".toList = "[/magenta]".toList ++
      ("[cyan]".toList ++ (":".toList ++ ("[/cyan]".toList ++ "[green]".toList))) := by simp
  have hend : "[/green][cyan]:[/cyan]".toList =
      "[/green]".toList ++ ("[cyan]".toList ++ (":".toList ++ "[/cyan]".toList)) := by simp
  have hpath (t : Text) : Markup.render ("[magenta]".toList ++ (Markup.escape path ++
      ("[/magenta]".toList ++ t))) = shown .plain path ++ Markup.render t := by
    have hclose : Markup.tag? "[/magenta]".toList = some ("[/magenta]".toList, []) := by decide
    have happend := Markup.render_append hclose ("[magenta]".toList ++ Markup.escape path) t
    rwa [List.append_assoc] at happend
  have hcolon (t : Text) : Markup.render ("[cyan]".toList ++ (":".toList ++
      ("[/cyan]".toList ++ t))) = ":".toList ++ Markup.render t :=
    Markup.render_between (by decide) (by decide) (by decide) (by decide) t
  have hline (t : Text) : Markup.render ("[green]".toList ++ (digits n.line ++
      ("[/green]".toList ++ t))) = digits n.line ++ Markup.render t :=
    Markup.render_between (by decide) (by decide) (not_mem_digits (by decide) (by decide) _)
      (not_mem_digits (by decide) (by decide) _) t
  unfold markup lead
  simp only [hmiddle, hend, List.append_assoc, hpath, hcolon, hline]

theorem newline_not_mem_markup (hpath : '\n' ∉ path) (htext : '\n' ∉ n.text) :
    '\n' ∉ markup path n := by
  have hescape {t : Text} (ht : '\n' ∉ t) : '\n' ∉ Markup.escape t := by
    intro h
    exact (Markup.mem_of_mem_escape h).elim (by decide) ht
  unfold markup
  simp only [List.mem_append, not_or]
  exact ⟨⟨⟨⟨⟨by decide, hescape hpath⟩, by decide⟩,
    not_mem_digits (by decide) (by decide) n.line⟩, by decide⟩, hescape htext⟩

theorem newline_not_mem_level (kind : Text) : '\n' ∉ level kind := by
  unfold level
  split
  · decide
  split <;> decide

theorem newline_not_mem_command (hpath : '\n' ∉ path) (htext : '\n' ∉ n.text) :
    '\n' ∉ command path n := by
  unfold command
  simp only [List.mem_append, not_or]
  exact ⟨⟨⟨⟨⟨⟨⟨by decide, newline_not_mem_level n.kind⟩, by decide⟩, hpath⟩, by decide⟩,
    not_mem_digits (by decide) (by decide) n.line⟩, by decide⟩, htext⟩

/-- A note is printed on one line, which begins with its lead. -/
theorem exists_line (format : Format) (hpath : '\n' ∉ path) (htext : '\n' ∉ n.text) :
    ∃ line, format.print path n = line ++ ['\n'] ∧ '\n' ∉ line ∧
      Screen.line (format.lead (format.shown path) n) <+: line := by
  -- It is enough to know that what is laid out begins with the lead and is one line.
  suffices h : ∃ behind, format.print path n =
        Screen.layout (format.lead (format.shown path) n ++ behind) ∧
      '\n' ∉ format.lead (format.shown path) n ++ behind by
    obtain ⟨behind, hprint, hnewline⟩ := h
    refine ⟨_, hprint.trans (Screen.layout_eq hnewline), ?_, Screen.line_prefix_append _ _⟩
    intro hmem
    exact (Screen.mem_of_mem_line hmem).elim (by decide) hnewline
  cases format with
  | plain =>
    refine ⟨_, congrArg Screen.layout (render_markup path n), ?_⟩
    rw [← render_markup]
    intro hmem
    exact (Markup.mem_of_mem_render hmem).elim (by decide) (newline_not_mem_markup hpath htext)
  | github => exact ⟨n.text, rfl, newline_not_mem_command hpath htext⟩
  | json =>
    have hobject :=
      Json.newline_not_mem_of_noControls (Json.noControls_encodeObject (Json.fields path n))
    have hlead : lead .json (shown .json path) n =
        '\x7b' :: (Json.encodeString "path".toList ++ [':', ' ']) := by
      show "\x7b\"path\": ".toList = _
      decide
    obtain ⟨behind, hbehind⟩ := Json.key_prefix_encodeObject "path".toList (.string path) _
    rw [← hlead] at hbehind
    exact ⟨behind, congrArg Screen.layout hbehind.symm, by rw [hbehind]; exact hobject⟩

theorem isPlain_digits (i : Int) : Screen.isPlain (digits i) = true :=
  Json.isPlain_of_noControls (Json.noControls_digits i)

theorem isPlain_level (kind : Text) : Screen.isPlain (level kind) = true := by
  unfold level
  split
  · decide
  split <;> decide

/-- Whether a format shows a path as it is. -/
def Shows (format : Format) (path : Text) : Prop :=
  match format with
  | .plain => Screen.isPlain path = true ∧ '\\' ∉ path
  | .github => Screen.isPlain path = true
  | .json => True

theorem isPlain_lead {format : Format} (h : format.Shows path) :
    Screen.isPlain (format.lead path n) = true := by
  have hline := isPlain_digits n.line
  have hlevel := isPlain_level n.kind
  unfold lead
  cases format with
  | plain =>
    simp only [Screen.isPlain_append]
    exact ⟨⟨⟨h.1, by decide⟩, hline⟩, by decide⟩
  | github =>
    simp only [Screen.isPlain_append]
    exact ⟨⟨⟨⟨⟨⟨by decide, hlevel⟩, by decide⟩, h⟩, by decide⟩, hline⟩, by decide⟩
  | json =>
    show Screen.isPlain "\x7b\"path\": ".toList = true
    decide

/-- The lead of a note is printed as it is if its path is. -/
theorem line_lead {format : Format} (h : format.Shows path) :
    Screen.line (format.lead (format.shown path) n) = format.lead path n := by
  have hpath : format.shown path = path := by
    cases format with
    | plain => exact shown_plain h.2
    | github => rfl
    | json => rfl
  rw [hpath]
  exact Screen.line_of_plain (isPlain_lead h)

end Format

end SourceNotes
