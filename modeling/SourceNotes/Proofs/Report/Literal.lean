/-
When a note is printed literally.

In the plain format the path and the text of a note are written as escaped markup, which is read
again when it is printed. Almost all of them come through that unchanged, tags and brackets among
them; what does not are some texts with slashes.

* **`Format.print_plain_iff`** — a note without controls is printed as path, line and text if and
  only if the slashes in its path and its text guard tags, with some care at their ends;
* **`Format.print_plain_ne`** — notes that are printed differently.
-/
import SourceNotes.Proofs.Report.Lines

namespace SourceNotes.Format

variable {path : Text} {n : Note}

theorem noControls_markup (hpath : Json.noControls path = true)
    (htext : Json.noControls n.text = true) : Json.noControls (markup path n) = true := by
  have hescape {s : Text} (hs : Json.noControls s = true) :
      Json.noControls (Markup.escape s) = true := by
    refine Json.noControls_iff.2 fun c hc => ?_
    rcases Markup.mem_of_mem_escape hc with rfl | hmem
    · decide
    · exact Json.noControls_iff.1 hs c hmem
  unfold markup
  simp only [Json.noControls_append]
  exact ⟨⟨⟨⟨⟨by decide, hescape hpath⟩, by decide⟩, Json.noControls_digits n.line⟩, by decide⟩,
    hescape htext⟩

/-- Path and text of a note are shown apart from each other, the path in front of a tag. -/
theorem render_markup_eq (path : Text) (n : Note) : Markup.render (markup path n) =
    Markup.render (Markup.escape path ++ "[/magenta]".toList) ++
      ':' :: (digits n.line ++ ':' :: Markup.render (Markup.escape n.text)) := by
  have hcolon : ":".toList = [':'] := by decide
  rw [render_markup]
  unfold lead Format.shown
  dsimp only
  rw [hcolon, List.append_assoc "[magenta]".toList, Markup.render_tag_append (by decide)]
  simp only [List.append_assoc, List.cons_append, List.nil_append]

/-- Without controls a note is printed as its markup is shown. -/
theorem print_plain (hpath : Json.noControls path = true) (htext : Json.noControls n.text = true) :
    print .plain path n = Markup.render (Markup.escape path ++ "[/magenta]".toList) ++
      ':' :: (digits n.line ++ ':' :: Markup.render (Markup.escape n.text)) ++ ['\n'] := by
  have hall : Json.noControls (Markup.render (markup path n)) = true := by
    refine Json.noControls_iff.2 fun c hc => ?_
    rcases Markup.mem_of_mem_render hc with rfl | hmem
    · decide
    · exact Json.noControls_iff.1 (noControls_markup hpath htext) c hmem
  rw [← render_markup_eq]
  show Screen.layout (Markup.render (markup path n)) = _
  rw [Screen.layout_eq (Json.newline_not_mem_of_noControls hall),
    Screen.line_of_plain (Json.isPlain_of_noControls hall)]

/-- A note without controls is printed as its path, its line and its text if and only if all slashes
before brackets in both of them stand before tags, the path does not end in two slashes, and the
text does not end in a single one. -/
theorem print_plain_iff (hpath : Json.noControls path = true)
    (htext : Json.noControls n.text = true) :
    print .plain path n = path ++ ':' :: (digits n.line ++ ':' :: n.text) ++ ['\n'] ↔
      (Markup.GuardsTags path ∧ ¬ ['\\', '\\'] <:+ path) ∧
        Markup.GuardsTags n.text ∧ (['\\'] <:+ n.text → ['\\', '\\'] <:+ n.text) := by
  have hclose : Markup.tag? "[/magenta]".toList = some ("[/magenta]".toList, []) := by decide
  have hcolon : ':' ≠ '\\' := by decide
  -- What is shown of the path ends before the colon, so path and text are compared one by one.
  rw [print_plain hpath htext, List.append_cancel_right_eq,
    Markup.render_escape_append_iff hclose hcolon, List.append_cancel_left_eq, List.cons.injEq,
    Markup.render_escape_iff]
  simp only [true_and]

/-- A note in a file with brackets and a slash in its name, with tags in its text, a slash before
one of them, and two slashes at the end. -/
def bracketNote : Note where
  kind := "TODO".toList
  text := "// TODO: [b]x[/b] \\[i] [ C:\\\\".toList
  label := []
  message := "[b]x[/b] \\[i] [ C:\\\\".toList
  line := 7
  commentLine := 7

theorem print_plain_iff_brackets :
    Json.noControls "a[1]/b[x]\\".toList = true ∧ Json.noControls bracketNote.text = true ∧
      print .plain "a[1]/b[x]\\".toList bracketNote =
        "a[1]/b[x]\\:7:// TODO: [b]x[/b] \\[i] [ C:\\\\\n".toList := by
  have hpath : Json.noControls "a[1]/b[x]\\".toList = true := by decide
  have htext : Json.noControls bracketNote.text = true := by decide
  have hguards : Markup.GuardsTags "a[1]/b[x]\\".toList := by
    simp [Markup.guardsTags_cons, Markup.guardsTags_nil]
  have hguards' : Markup.GuardsTags bracketNote.text := by
    simp [bracketNote, Markup.guardsTags_cons, Markup.guardsTags_nil, Markup.tag?,
      Markup.isTagStart]
  refine ⟨hpath, htext, ?_⟩
  exact (print_plain_iff hpath htext).2
    ⟨⟨hguards, by decide⟩, hguards', fun _ => by decide⟩

/-- A note whose text ends in a slash. -/
def slashNote : Note where
  kind := "TODO".toList
  text := "// TODO: \\".toList
  label := []
  message := "\\".toList
  line := 1
  commentLine := 1

/-- A single slash at the end of a text is printed twice, a slash before a bracket that opens no tag
is lost, and so is one of two at the end of a path. -/
theorem print_plain_ne :
    Json.noControls "a.c".toList = true ∧ Json.noControls slashNote.text = true ∧
      print .plain "a.c".toList slashNote = "a.c:1:// TODO: \\\\\n".toList ∧
      print .plain "a.c".toList { slashNote with text := "// TODO: \\[1]".toList } =
        "a.c:1:// TODO: [1]\n".toList ∧
      print .plain "a\\\\".toList { slashNote with text := "// TODO: x".toList } =
        "a\\:1:// TODO: x\n".toList := by
  have hpath : Markup.render (Markup.escape "a.c".toList ++ "[/magenta]".toList) =
      "a.c".toList := by decide +kernel
  have hpath' : Markup.render (Markup.escape "a\\\\".toList ++ "[/magenta]".toList) =
      "a\\".toList := by decide +kernel
  have htext : Markup.render (Markup.escape "// TODO: \\".toList) =
      "// TODO: \\\\".toList := by decide +kernel
  have htext' : Markup.render (Markup.escape "// TODO: \\[1]".toList) =
      "// TODO: [1]".toList := by decide +kernel
  have htext'' : Markup.render (Markup.escape "// TODO: x".toList) =
      "// TODO: x".toList := by decide +kernel
  refine ⟨by decide, by decide, ?_, ?_, ?_⟩
  · rw [print_plain (by decide) (by decide), hpath, slashNote, htext]
    decide
  · rw [print_plain (by decide) (by decide), hpath, htext']
    decide
  · rw [print_plain (by decide) (by decide), hpath', htext'']
    decide

end SourceNotes.Format
