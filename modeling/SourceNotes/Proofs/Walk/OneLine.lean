/-
What a walk finds is on one line.

A path that leads somewhere is made of names in the tree, of dots and of slashes, so that there is a
newline in the path of a note only if there is one in the name of a file or a folder. In the text of
a note there is none, whatever the file is made of.

* **`FileTree.OneLineNames`** — trees with no newline in a name;
* **`Walk.newline_not_mem_of_note`** — neither the path nor the text of a note has a newline in it.
-/
import SourceNotes.Proofs.Comment.OneLine
import SourceNotes.Proofs.Note.Rows
import SourceNotes.Proofs.Walk.Blocks

namespace SourceNotes

/-! ### Paths -/

/-- Whether no name in the tree has a newline in it. -/
def FileTree.OneLineNames (tree : FileTree) : Prop :=
  ∀ place there, tree.Holds place there → ∀ name ∈ place, '\n' ∉ name

theorem Path.newline_not_mem_root (raw : Text) : '\n' ∉ (Path.ofText raw).root := by
  show '\n' ∉ Path.rootOf raw
  unfold Path.rootOf
  split <;> decide

theorem Path.newline_not_mem_toText {path : Path} (hroot : '\n' ∉ path.root)
    (hnames : ∀ name ∈ path.names, '\n' ∉ name) : '\n' ∉ path.toText := by
  unfold Path.toText
  split
  · decide
  · intro h
    rcases List.mem_append.1 h with h | h
    · exact hroot h
    · rcases Text.mem_of_mem_join h with h | ⟨name, hname, h⟩
      · exact absurd h (by decide)
      · exact hnames name hname h

/-- The names that lead to a place in such a tree. -/
theorem Disk.newline_not_mem_of_locate {disk : Disk} {path : Path} {spot : Spot}
    (hnames : disk.root.OneLineNames) (h : disk.locate path = .ok spot) :
    ∀ name ∈ path.names, '\n' ∉ name := by
  intro name hname
  rcases exists_holds_of_locate h hname with (rfl | rfl | rfl) | ⟨place, there, hholds, hmem⟩
  · decide
  · decide
  · decide
  · exact hnames place there hholds name hmem

namespace Walk

variable {o : Options} {disk : Disk} {spot : Spot} {path : Path} {listed : Bool}

/-- The paths of what a walk scans in such a tree. -/
theorem newline_not_mem_of_mem_visits (hnames : disk.root.OneLineNames)
    (hv : .scan spot path listed ∈ visits o disk) : '\n' ∉ path.toText := by
  obtain ⟨raw, -, hv⟩ := List.mem_flatMap.1 hv
  cases hlocate : disk.locate (.ofText raw) with
  | error e =>
    rw [visitsOf_of_error hlocate, List.mem_singleton] at hv
    split at hv <;> cases hv
  | ok found =>
    have hraw := Disk.newline_not_mem_of_locate hnames hlocate
    have hroot := Path.newline_not_mem_root raw
    obtain ⟨place, there⟩ := found
    have hother (hthere : ∀ listable entries, there ≠ .folder listable entries) :
        '\n' ∉ path.toText := by
      rw [visitsOf_of_other hlocate hthere, List.mem_singleton] at hv
      cases hv
      exact Path.newline_not_mem_toText hroot hraw
    cases there with
    | folder listable entries =>
      rw [visitsOf_of_folder hlocate] at hv
      obtain ⟨rest, there, hholds, hpath⟩ := exists_holds_of_mem_visitsIn hv
      have hplace := (Disk.holds_of_locate hlocate).trans hholds
      change path = (Path.ofText raw).below ([] ++ rest) at hpath
      rw [hpath]
      refine Path.newline_not_mem_toText hroot ?_
      intro name hname
      rcases List.mem_append.1 hname with hname | hname
      · exact hraw name hname
      · exact hnames _ _ hplace name (List.mem_append_right place hname)
    | file content => exact hother (by rintro _ _ ⟨⟩)
    | link target => exact hother (by rintro _ _ ⟨⟩)

/-! ### Texts -/

theorem newline_not_mem_of_mem_notesIn {charset : Codes} {tables : List Charset.Table}
    {kinds : List Text} {content : Except SystemError Octets} {n : Note}
    (h : n ∈ notesIn charset tables kinds path content) : '\n' ∉ n.text := by
  unfold notesIn at h
  split at h
  · cases h
  split at h
  · cases h
  next octets file hopen =>
  obtain ⟨encoding, language, rules, -, hrules, rfl⟩ := SourceFile.exists_of_ofOctets hopen
  rw [Finder.drain_ofScanner] at h
  obtain ⟨c, hc, hn⟩ := List.mem_flatMap.1 h
  -- A line comment is one line, and a block comment is cut into lines.
  have hline : ∀ rule, c.form = .line rule → '\n' ∉ c.text := by
    intro rule hform
    exact Scanner.newline_not_mem (SourceFile.keepsLines_of_rules? hrules) hc hform
  obtain ⟨i, part, hpart, htext, -, -⟩ := Note.row_of_mem_ofComment hn hline
  rw [htext]
  intro hmem
  exact Text.not_mem_of_mem_pieces (List.mem_of_getElem? hpart) (Note.mem_of_mem_trim hmem)

/-- A scan reports nothing but notes in its file, and failures. -/
theorem mem_notesIn_of_note {content : Except SystemError Octets} {p : Path} {n : Note}
    (h : .note p n ∈ (scanFile o path content listed).events) :
    p = path ∧ n ∈ notesIn o.charset o.tables o.kinds path content := by
  unfold scanFile at h
  unfold notesIn
  cases content with
  | error e => cases List.mem_singleton.1 h
  | ok octets =>
    dsimp only at h ⊢
    unfold scanContent at h
    cases hopen : SourceFile.ofOctets path.toText octets o.charset o.tables with
    | error cause =>
      rw [hopen] at h
      dsimp only at h
      split at h
      · cases h
      · cases h
      · split at h
        · cases h
        · cases List.mem_singleton.1 h
      · split at h
        · cases List.mem_singleton.1 h
        · cases h
      · next heq => cases heq
    | ok file =>
      rw [hopen] at h
      dsimp only at h ⊢
      have hfound (hmem : .note p n ∈ ((Finder.ofScanner o.kinds file.scanner).drain.1.filter
          fun n => wantsLabel o n.label).map (Event.note path)) :
          p = path ∧ n ∈ (Finder.ofScanner o.kinds file.scanner).drain.1 := by
        obtain ⟨m, hm, heq⟩ := List.mem_map.1 hmem
        cases heq
        exact ⟨rfl, (List.mem_filter.1 hm).1⟩
      split at h
      · exact hfound h
      · rcases List.mem_append.1 h with h | h
        · exact hfound h
        · cases List.mem_singleton.1 h
      · exact hfound h

theorem mem_events_concat {trails : List Trail} {e : Event} (h : e ∈ (Trail.concat trails).events) :
    ∃ t ∈ trails, e ∈ t.events := by
  induction trails with
  | nil => cases h
  | cons t trails ih =>
    change e ∈ (t.append (.concat trails)).events at h
    unfold Trail.append at h
    split at h
    · exact ⟨t, List.mem_cons_self, h⟩
    · rcases List.mem_append.1 h with h | h
      · exact ⟨t, List.mem_cons_self, h⟩
      · obtain ⟨u, hu, hmem⟩ := ih h
        exact ⟨u, List.mem_cons_of_mem t hu, hmem⟩

/-- A note is found on one line of a file that is called by one line. -/
theorem newline_not_mem_of_note (hd : disk.root.Distinct) (hnames : disk.root.OneLineNames)
    {n : Note} (h : .note path n ∈ (run o disk).events) :
    '\n' ∉ path.toText ∧ '\n' ∉ n.text := by
  rw [run_eq hd] at h
  obtain ⟨t, ht, hmem⟩ := mem_events_concat h
  obtain ⟨v, hv, rfl⟩ := List.mem_map.1 ht
  cases v with
  | scan spot p listed =>
    obtain ⟨rfl, hn⟩ := mem_notesIn_of_note hmem
    exact ⟨newline_not_mem_of_mem_visits hnames hv, newline_not_mem_of_mem_notesIn hn⟩
  | refuse => cases List.mem_singleton.1 hmem
  | missing => cases List.mem_singleton.1 hmem
  | halt => cases hmem

end Walk

end SourceNotes
