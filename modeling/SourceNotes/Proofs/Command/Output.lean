/-
A run prints one line for each note.

What a walk finds goes to the printer of a format in its order. No note takes more than one line,
and each line begins with what tells the file and the line of its note, so that nothing that stands
in a comment is taken for a line of its own.

* **`Command.handed`** — the notes that a run hands on to be printed;
* **`Command.run_lines`** — the output is one line for each of them;
* **`Command.run_tabDisk`** — a tab in the name of a file is filled up in the output.
-/
import Mathlib.Data.List.Forall2
import SourceNotes.Command.Run
import SourceNotes.Proofs.Report.Lines
import SourceNotes.Proofs.SourceFile.Detect
import SourceNotes.Proofs.Walk.OneLine

namespace SourceNotes

/-- The notes on a trail, each with the path of its file. -/
def Walk.Trail.notes (t : Walk.Trail) : List (Path × Note) :=
  t.events.filterMap fun
    | .note path note => some (path, note)
    | .failure _ => none

namespace Command

variable {s : Settings} {arguments : List Text} {a : Arguments} {disk : Disk} {format : Format}

/-- The notes that a run hands on to be printed. -/
def handed (a : Arguments) (s : Settings) (disk : Disk) : List (Path × Note) :=
  match Project.load disk (workingPath disk) with
  | .error _ => []
  | .ok p =>
    if wantedKinds a p s = [] then [] else (Walk.run (walkOptions a p s) disk).notes

theorem output_ofTrail (format : Format) (t : Walk.Trail) :
    (Outcome.ofTrail format t).output = t.notes.flatMap fun x => format.print x.1.toText x.2 := by
  show t.events.flatMap (printed format) = _
  unfold Walk.Trail.notes
  induction t.events with
  | nil => rfl
  | cons e events ih =>
    rw [List.flatMap_cons, ih]
    cases e with
    | note path note => rfl
    | failure error => rfl

/-- Nothing but notes is printed by a scan. -/
theorem output_run (hrequest : Request.ofArguments arguments = .ok (.scan a))
    (hformat : Format.ofName? (formatName a s) = some format) :
    (run s arguments disk).output =
      (handed a s disk).flatMap fun x => format.print x.1.toText x.2 := by
  unfold run
  rw [hrequest]
  show (scan a s disk).output = _
  unfold scan handed
  cases Project.load disk (workingPath disk) with
  | error e =>
    cases e <;> rfl
  | ok p =>
    dsimp only
    unfold scanProject
    rw [hformat]
    dsimp only
    split
    · rfl
    · exact output_ofTrail format _

theorem newline_not_mem_of_handed (hd : disk.root.Distinct) (hnames : disk.root.OneLineNames)
    {x : Path × Note} (h : x ∈ handed a s disk) : '\n' ∉ x.1.toText ∧ '\n' ∉ x.2.text := by
  unfold handed at h
  split at h
  · cases h
  split at h
  · cases h
  · obtain ⟨e, he, heq⟩ := List.mem_filterMap.1 h
    cases e with
    | note path note =>
      cases heq
      exact Walk.newline_not_mem_of_note hd hnames he
    | failure error => cases heq

/-- Things that take a line each. -/
theorem exists_lines {α : Type} {f : α → Text} {R : α → Text → Prop} {l : List α}
    (h : ∀ x ∈ l, ∃ line, f x = line ++ ['\n'] ∧ '\n' ∉ line ∧ R x line) :
    ∃ lines, Text.pieces '\n' (l.flatMap f) = lines ++ [[]] ∧ List.Forall₂ R l lines := by
  obtain ⟨lines, hlines, hnewline, hall⟩ : ∃ lines : List Text,
      l.flatMap f = lines.flatMap (fun line => line ++ ['\n']) ∧ (∀ line ∈ lines, '\n' ∉ line) ∧
        List.Forall₂ R l lines := by
    induction l with
    | nil => exact ⟨[], rfl, by simp, .nil⟩
    | cons x l ih =>
      rw [List.forall_mem_cons] at h
      obtain ⟨line, hx, hline, hR⟩ := h.1
      obtain ⟨lines, hlines, hnewline, hall⟩ := ih h.2
      refine ⟨line :: lines, ?_, List.forall_mem_cons.2 ⟨hline, hnewline⟩, .cons hR hall⟩
      rw [List.flatMap_cons, List.flatMap_cons, hx, hlines]
  exact ⟨lines, by rw [hlines, Text.pieces_flatMap hnewline], hall⟩

/-- A run prints one line for each note that it hands on, in their order. Each line begins with the
lead of its note as it is printed, and with the lead itself if the format shows the path as it is.
-/
theorem run_lines (hrequest : Request.ofArguments arguments = .ok (.scan a))
    (hformat : Format.ofName? (formatName a s) = some format) (hd : disk.root.Distinct)
    (hnames : disk.root.OneLineNames) :
    ∃ lines, Text.pieces '\n' (run s arguments disk).output = lines ++ [[]] ∧
      List.Forall₂ (fun x line =>
        Screen.line (format.lead (format.shown x.1.toText) x.2) <+: line ∧
          (format.Shows x.1.toText → format.lead x.1.toText x.2 <+: line))
        (handed a s disk) lines := by
  rw [output_run hrequest hformat]
  refine exists_lines fun x hx => ?_
  obtain ⟨hpath, htext⟩ := newline_not_mem_of_handed hd hnames hx
  obtain ⟨line, hprint, hnewline, hlead⟩ := format.exists_line hpath htext
  refine ⟨line, hprint, hnewline, hlead, fun hshows => ?_⟩
  rw [← Format.line_lead hshows]
  exact hlead

/-! ### A tab in a name -/

/-- A line comment with a note. -/
def tabOctets : Octets := [0x2F, 0x2F, 0x20, 0x54, 0x4F, 0x44, 0x4F, 0x3A, 0x20, 0x78]

/-- A folder with a file that has a tab in its name. -/
def tabDisk : Disk := { root := .folder true [("a\tb.c".toList, .file (some tabOctets))] }

/-- The command line of a run on that file. -/
def tabCommand : List Text :=
  ["-o", "github", "--todo-types", "TODO", "a\tb.c"].map String.toList

/-- What it says. -/
def tabArguments : Arguments :=
  { paths := ["a\tb.c".toList], kinds := some "TODO".toList, output := some "github".toList }

/-- The note in it. -/
def tabNote : Note := ⟨"TODO".toList, "// TODO: x".toList, [], "x".toList, 1, 1⟩

theorem load_tabDisk : Project.load tabDisk (workingPath tabDisk) = .ok {} := by
  have hfolder : tabDisk.isFolder (workingPath tabDisk) = .ok true := by
    have hlocate : tabDisk.locate (workingPath tabDisk) = .ok ⟨[], tabDisk.root⟩ := by
      rw [Disk.locate, if_neg (by decide), if_neg (by decide)]
      exact Disk.follow.eq_2 ..
    rw [Disk.isFolder, Disk.holds, Disk.find, hlocate]
    rfl
  have hmissing : tabDisk.isThere ((workingPath tabDisk).append { names := [Project.fileName] }) =
      .ok false := by
    have hlocate : tabDisk.locate ((workingPath tabDisk).append { names := [Project.fileName] }) =
        .error .notFound := by
      rw [Disk.locate, if_neg (by decide), if_neg (by decide)]
      exact Disk.follow_of_none rfl (by decide) (by decide)
    rw [Disk.isThere, Disk.holds, Disk.find, hlocate]
    rfl
  unfold Project.load
  simp only [hfolder, hmissing, pure_bind]
  rfl

theorem distinct_tabDisk : tabDisk.root.Distinct := by
  refine FileTree.distinct_folder (by decide) ?_
  rw [List.forall_mem_singleton]
  exact FileTree.distinct_file _

theorem oneLineNames_tabDisk : tabDisk.root.OneLineNames := by
  intro place there hholds name hname
  cases hholds with
  | here => cases hname
  | inside hmem hinner =>
    cases List.mem_singleton.1 hmem
    cases hinner
    cases List.mem_singleton.1 hname
    decide

theorem scanFile_tabDisk :
    Walk.scanFile (walkOptions tabArguments {} {}) { names := ["a\tb.c".toList] } (.ok tabOctets)
      true = { events := [.note { names := ["a\tb.c".toList] } tabNote] } := by
  have hcharset : SourceFile.resolveCharset (Codes.ofText "utf-8".toList) tabOctets =
      .ok .utf8 := by
    rw [SourceFile.resolveCharset, Codes.text?_ofText]
    rfl
  have hlang : Language.ofPath? "a\tb.c".toList = some "C" := by decide
  have hrules : Language.rules? "C" = some Language.slashStyle := by decide
  have hopen : SourceFile.ofOctets "a\tb.c".toList tabOctets (Codes.ofText "utf-8".toList) =
      .ok ⟨"C", .utf8, .ofReader Language.slashStyle (.ofCharset .utf8 tabOctets)⟩ := by
    rw [SourceFile.ofOctets, if_neg (by decide)]
    simp only [hcharset, hlang, hrules]
  have hline : Reads decideLine false () ['/', '/'] " TODO: x".toList [] () :=
    .more (u := [' ']) rfl (by decide) (.more (u := ['T']) rfl (by decide)
      (.more (u := ['O']) rfl (by decide) (.more (u := ['D']) rfl (by decide)
        (.more (u := ['O']) rfl (by decide) (.more (u := [':']) rfl (by decide)
          (.more (u := [' ']) rfl (by decide) (.more (u := ['x']) rfl (by decide)
            (.stop rfl (by decide)))))))))
  have hseg : Segmentation Language.slashStyle false [] "// TODO: x".toList
      [.comment ⟨"// TODO: x".toList, 1, .line (some Language.slashLine)⟩] :=
    @Segmentation.closed _ _ [] " TODO: x".toList [] (.line Language.slashLine) _ _ rfl
      (.line hline) .done
  have hencode : Charset.utf8.encode .little "// TODO: x".toList = some tabOctets := by decide
  obtain ⟨last, hdrain, herror⟩ :=
    SourceFile.drain_of_encode (SourceFile.fits_of_rules? hrules) hencode hseg
  have hkinds : Note.ordered ["TODO".toList] = ["TODO".toList] := List.mergeSort_singleton _
  have hfound : (Finder.ofScanner ["TODO".toList]
      (.ofReader Language.slashStyle (.ofCharset .utf8 tabOctets))).drain =
        ([tabNote], .ok none) := by
    rw [Finder.drain, Finder.ofScanner]
    dsimp only
    rw [hdrain, hkinds, ← herror]
    rfl
  unfold Walk.scanFile Walk.scanContent
  dsimp only
  have hpath : Path.toText { names := ["a\tb.c".toList] } = "a\tb.c".toList := by decide
  have hname : (walkOptions tabArguments {} {}).charset = Codes.ofText "utf-8".toList := rfl
  have htables : (walkOptions tabArguments {} {}).tables = [] := rfl
  have hwanted : (walkOptions tabArguments {} {}).kinds = ["TODO".toList] := by decide
  rw [hpath, hname, htables, hopen, hwanted]
  dsimp only
  rw [hfound]
  rfl

/-- The visit of the file, if it is listed. -/
def tabVisit : Walk.Visit :=
  .scan ⟨["a\tb.c".toList], .file (some tabOctets)⟩ { names := ["a\tb.c".toList] } true

theorem visitsOf_tabDisk (o : Walk.Options) :
    Walk.visitsOf o tabDisk "a\tb.c".toList = [tabVisit] := by
  have hlocate : tabDisk.locate (.ofText "a\tb.c".toList) =
      .ok ⟨["a\tb.c".toList], .file (some tabOctets)⟩ := by
    have hpath : Path.ofText "a\tb.c".toList = { names := ["a\tb.c".toList] } := by decide
    rw [hpath, Disk.locate_of_names rfl (by decide) (by decide),
      Disk.follow_of_some rfl (by decide) rfl (by rintro _ ⟨⟩), Disk.follow.eq_2]
    rfl
  rw [Walk.visitsOf_of_other hlocate (by rintro _ _ ⟨⟩)]
  rfl

theorem trail_tabVisit : tabVisit.trail (Walk.scanFile (walkOptions tabArguments {} {})) =
    { events := [.note { names := ["a\tb.c".toList] } tabNote] } := by
  have hcontent : Walk.contentFor { names := ["a\tb.c".toList] }
      ⟨["a\tb.c".toList], .file (some tabOctets)⟩ = .ok tabOctets := by
    rw [Walk.contentFor, if_neg (by decide)]
    rfl
  rw [tabVisit, Walk.Visit.trail, hcontent, scanFile_tabDisk]

theorem handed_tabDisk :
    handed tabArguments {} tabDisk = [({ names := ["a\tb.c".toList] }, tabNote)] := by
  have hvisits : Walk.visits (walkOptions tabArguments {} {}) tabDisk = [tabVisit] := by
    show [_].flatMap (Walk.visitsOf _ tabDisk) = _
    rw [List.flatMap_singleton, visitsOf_tabDisk]
  unfold handed
  rw [load_tabDisk]
  dsimp only
  rw [if_neg (by decide), Walk.run_eq distinct_tabDisk, hvisits, List.map_singleton,
    Walk.Trail.concat_singleton, trail_tabVisit]
  rfl

theorem request_tabCommand : Request.ofArguments tabCommand = .ok (.scan tabArguments) := by decide

theorem run_lines_tabDisk :
    Request.ofArguments tabCommand = .ok (.scan tabArguments) ∧
      Format.ofName? (formatName tabArguments {}) = some .github ∧ tabDisk.root.Distinct ∧
      tabDisk.root.OneLineNames ∧
      handed tabArguments {} tabDisk = [({ names := ["a\tb.c".toList] }, tabNote)] ∧
      ∃ lines, Text.pieces '\n' (run {} tabCommand tabDisk).output = lines ++ [[]] ∧
        List.Forall₂ (fun x line =>
          Screen.line (Format.github.lead (Format.github.shown x.1.toText) x.2) <+: line ∧
            (Format.github.Shows x.1.toText → Format.github.lead x.1.toText x.2 <+: line))
          (handed tabArguments {} tabDisk) lines := by
  have hformat : Format.ofName? (formatName tabArguments {}) = some .github := by decide
  exact ⟨request_tabCommand, hformat, distinct_tabDisk, oneLineNames_tabDisk, handed_tabDisk,
    run_lines request_tabCommand hformat distinct_tabDisk oneLineNames_tabDisk⟩

/-- The tab is filled up to a tab stop, and the line does not begin with the name of the file. -/
theorem run_tabDisk :
    tabDisk.root.OneLineNames ∧
      handed tabArguments {} tabDisk = [({ names := ["a\tb.c".toList] }, tabNote)] ∧
      (run {} tabCommand tabDisk).output =
        "::warning file=a        b.c,line=1::// TODO: x\n".toList ∧
      ¬ "::warning file=a\tb.c,line=1::".toList <+: (run {} tabCommand tabDisk).output := by
  have hformat : Format.ofName? (formatName tabArguments {}) = some .github := by decide
  have hprint : Format.github.print "a\tb.c".toList tabNote =
      "::warning file=a        b.c,line=1::// TODO: x\n".toList := by decide
  have hpath : Path.toText { names := ["a\tb.c".toList] } = "a\tb.c".toList := by decide
  have houtput : (run {} tabCommand tabDisk).output =
      "::warning file=a        b.c,line=1::// TODO: x\n".toList := by
    rw [output_run request_tabCommand hformat, handed_tabDisk, List.flatMap_singleton, hpath,
      hprint]
  refine ⟨oneLineNames_tabDisk, handed_tabDisk, houtput, ?_⟩
  rw [houtput]
  decide

end Command

end SourceNotes
