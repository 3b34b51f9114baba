/-
What each visit of a walk reports.

Whatever is wrong with a file, the walk goes on: a visit reports a block of events, and the events
of a walk are the blocks of its visits, one after another. A block is about one path, and depends
on nothing but that path and the content found there.

* **`Codes.Readable`** — the names of character sets under which it can be told what comes of files:
  those of the library and of the tables at hand, and the names that nothing has;
* **`SourceFile.drain_of_ofOctets`** — a file that is opened is scanned to an end;
* **`Walk.scanFile_eq`** — what the scan of a file reports;
* **`Walk.Clear`** — the walks that nothing ends before their time;
* **`Walk.run_of_visits`** — the events of such a walk.
-/
import SourceNotes.Proofs.Ignore.Verdicts
import SourceNotes.Proofs.Note.Rows
import SourceNotes.Proofs.SourceFile.Detect
import SourceNotes.Proofs.Walk.Selection

namespace SourceNotes

open Charset Ignore

/-! ### Scans -/

/-- A name of which it can be told what comes of the files: it holds no NUL, and it asks for no
character set in which a mark is due, save by detection. It may be the name of a character set of
the library or of a table, or a name that nothing has. -/
def Codes.Readable (name : Codes) (tables : List Charset.Table) : Prop :=
  ∃ s, name.text? = some s ∧ '\x00' ∉ s ∧
    (∀ w, Charset.ofName s tables ≠ .ok (.wideMarked w)) ∧
      (Charset.ofName s tables = .error .unknown → Charset.isElsewhere s = false)

namespace SourceFile

/-- Where detection tells a character set with a mark, the octets begin with the mark. -/
theorem orderOf_detectCharset {octets : Octets} {w : Wide}
    (h : detectCharset octets = .wideMarked w) : w.orderOf octets ≠ none := by
  unfold detectCharset at h
  cases hfind : marks.find? fun m => m.1.isPrefixOf octets with
  | none => rw [hfind] at h; cases h
  | some m =>
    rw [hfind] at h
    have hprefix := List.find?_some hfind
    have hmem := List.mem_of_find?_eq_some hfind
    have hmark : ∃ order, (w.mark order).isPrefixOf octets = true := by
      simp only [marks, List.mem_cons, List.not_mem_nil, or_false] at hmem
      rcases hmem with rfl | rfl | rfl | rfl | rfl <;> cases h
      · exact ⟨.big, hprefix⟩
      · exact ⟨.little, hprefix⟩
      · exact ⟨.big, hprefix⟩
      · exact ⟨.little, hprefix⟩
    obtain ⟨order, horder⟩ := hmark
    unfold Wide.orderOf
    cases order with
    | little => simp [horder]
    | big =>
      rw [if_pos horder]
      split <;> simp

/-- What can be wrong with a file when the name of the character set is in order. -/
theorem error_of_ofOctets {path : Text} {octets : Octets} {name : Codes}
    {tables : List Charset.Table} {e : OpenError} (hname : name.Readable tables)
    (h : ofOctets path octets name tables = .error e) :
    e = .binary path ∨ e = .language path ∨
      ∃ s, Charset.isElsewhere s = false ∧ e = .charset s .unknown := by
  obtain ⟨s, hs, hnul, -, helsewhere⟩ := hname
  unfold ofOctets at h
  split at h
  · cases h
    exact .inl rfl
  split at h
  · next e' hcharset =>
    cases h
    unfold resolveCharset at hcharset
    rw [hs] at hcharset
    dsimp only at hcharset
    split at hcharset
    · cases hcharset
    · cases hof : Charset.ofName s tables with
      | ok charset =>
        rw [hof] at hcharset
        cases hcharset
      | error fault =>
        rw [hof] at hcharset
        cases hcharset
        cases fault with
        | unknown => exact .inr (.inr ⟨s, helsewhere hof, rfl⟩)
        | nul =>
          unfold Charset.ofName at hof
          rw [if_neg hnul] at hof
          split at hof <;> cases hof
  split at h
  · cases h
    exact .inr (.inl rfl)
  split at h
  · cases h
    exact .inr (.inl rfl)
  · cases h

/-- What a file that is opened is made of. -/
theorem exists_of_ofOctets {path : Text} {octets : Octets} {name : Codes}
    {tables : List Charset.Table} {file : SourceFile}
    (hopen : ofOctets path octets name tables = .ok file) :
    ∃ charset language rules, resolveCharset name octets tables = .ok charset ∧
      Language.rules? language = some rules ∧
      file = { language, charset, scanner := .ofReader rules (.ofCharset charset octets) } := by
  unfold ofOctets at hopen
  split at hopen
  · cases hopen
  split at hopen
  · cases hopen
  next charset hcharset =>
  split at hopen
  · cases hopen
  next language _ =>
  split at hopen
  · cases hopen
  next rules hrules =>
  cases hopen
  exact ⟨charset, language, rules, hcharset, hrules, rfl⟩

/-- No mark is missing, as only detection tells a character set that needs one. -/
theorem not_unmarked_of_resolveCharset {name : Codes} {tables : List Charset.Table}
    {octets : Octets} {charset : Charset} (hname : name.Readable tables)
    (h : resolveCharset name octets tables = .ok charset) : ¬ charset.Unmarked octets := by
  obtain ⟨s, hs, -, hmarkless, -⟩ := hname
  unfold resolveCharset at h
  rw [hs] at h
  dsimp only at h
  cases charset with
  | plain k => exact id
  | utf8Marked => exact id
  | wideMarked w =>
    rintro ⟨hnone, -⟩
    split at h
    · exact orderOf_detectCharset (Except.ok.inj h) hnone
    · cases hof : Charset.ofName s tables with
      | error e =>
        rw [hof] at h
        cases h
      | ok charset =>
        rw [hof] at h
        exact hmarkless w (hof.trans (congrArg Except.ok (Except.ok.inj h)))

/-- In no language does a line comment go over the end of its line. -/
theorem keepsLines_of_rules? {language : String} {rules : Rules}
    (hrules : Language.rules? language = some rules) : rules.KeepsLines := by
  have htable : ∀ l ∈ Language.table, l.2.KeepsLines := by decide
  obtain ⟨l, m, hlm, -⟩ := List.lookup_eq_some_iff.1 hrules
  apply htable (language, rules)
  rw [hlm]
  exact List.mem_append_right _ List.mem_cons_self

/-- The search through a file that is opened comes to an end, and the notes that it finds come in
the order of their lines. -/
theorem drain_of_ofOctets {path : Text} {octets : Octets} {name : Codes}
    {tables : List Charset.Table} {file : SourceFile} (hname : name.Readable tables)
    (hopen : ofOctets path octets name tables = .ok file) (kinds : List Text) :
    ∃ notes error, (Finder.ofScanner kinds file.scanner).drain = (notes, .ok error) ∧
      notes.Pairwise fun t u => t.line ≤ u.line := by
  obtain ⟨charset, language, rules, hcharset, hrules, rfl⟩ := exists_of_ofOctets hopen
  have hmarked := not_unmarked_of_resolveCharset hname hcharset
  have hunopened := Reader.unopened_ofCharset charset octets
  obtain ⟨o, -, hdel⟩ := hunopened.exists_delivers hmarked
  obtain ⟨segments, hseg⟩ := exists_segmentation rules o.fault.isSome [] o.runes
  obtain ⟨comments, last, hdrain, hprefix, -⟩ :=
    Scanner.drain_of_delivers hdel rfl hunopened.chunkSize_le hseg
  have hfound : (Finder.ofScanner kinds (.ofReader rules (.ofCharset charset octets))).drain =
      (comments.flatMap (Note.ofComment (Note.ordered kinds)), .ok last.error) := by
    rw [Finder.drain, Finder.ofScanner]
    dsimp only
    rw [hdrain]
    rfl
  refine ⟨_, _, hfound, ?_⟩
  have hnotes := hseg.pairwise_notes (keepsLines_of_rules? hrules) (Note.ordered kinds)
  obtain ⟨more, hmore⟩ := hprefix
  rw [← hmore, List.flatMap_append, List.pairwise_append] at hnotes
  exact hnotes.1.imp And.left

end SourceFile

namespace Walk

/-! ### Blocks -/

/-- The notes that are found in a file, which are none if it is not opened. -/
def notesIn (charset : Codes) (tables : List Charset.Table) (kinds : List Text) (path : Path)
    (content : Except SystemError Octets) : List Note :=
  match content with
  | .error _ => []
  | .ok octets =>
    match SourceFile.ofOctets path.toText octets charset tables with
    | .error _ => []
    | .ok file => (Finder.ofScanner kinds file.scanner).drain.1

/-- What the scan of a file reports. No other options have a say in it. -/
def fileEvents (charset : Codes) (tables : List Charset.Table) (kinds : List Text)
    (labels : List Glob) (path : Path) (content : Except SystemError Octets) (listed : Bool) :
    List Event :=
  (scanFile { charset, tables, kinds, labels } path content listed).events

/-- What a visit reports. -/
def Visit.block (charset : Codes) (tables : List Charset.Table) (kinds : List Text)
    (labels : List Glob) : Visit → List Event
  | .scan spot path listed =>
    fileEvents charset tables kinds labels path (contentFor path spot) listed
  | .refuse path cause => [.failure (.refused path cause)]
  | .missing raw => [.failure (.missing raw)]
  | .halt .. => []

/-- The path that an event is about. -/
def Event.path : Event → Path
  | .note path _ => path
  | .failure (.missing raw) => .ofText raw
  | .failure (.refused path _) => path
  | .failure (.unopened path _) => path
  | .failure (.unscanned path _) => path

variable {o : Options} {disk : Disk} {path : Path} {content : Except SystemError Octets}
  {listed : Bool}

theorem pairwise_notesIn {charset : Codes} {tables : List Charset.Table}
    (hcharset : charset.Readable tables) (kinds : List Text) :
    (notesIn charset tables kinds path content).Pairwise fun t u => t.line ≤ u.line := by
  unfold notesIn
  cases content with
  | error e => exact .nil
  | ok octets =>
    dsimp only
    cases hopen : SourceFile.ofOctets path.toText octets charset tables with
    | error cause => exact .nil
    | ok file =>
      obtain ⟨notes, error, hdrain, hlines⟩ := SourceFile.drain_of_ofOctets hcharset hopen kinds
      dsimp only
      rw [hdrain]
      exact hlines

/-- A scan reports the notes in a file, in their order, then at most one failure, and does not end
the walk. -/
theorem scanFile_eq (hcharset : o.charset.Readable o.tables) (path : Path)
    (content : Except SystemError Octets) (listed : Bool) :
    ∃ failure : Option WalkError, (∀ e ∈ failure, Event.path (.failure e) = path) ∧
      scanFile o path content listed = ⟨((notesIn o.charset o.tables o.kinds path content).filter
        fun n => wantsLabel o n.label).map (Event.note path) ++ failure.toList.map .failure,
        none⟩ := by
  unfold scanFile notesIn
  cases content with
  | error e => exact ⟨some (.refused path e), by simp [Event.path], rfl⟩
  | ok octets =>
    dsimp only
    unfold scanContent
    cases hopen : SourceFile.ofOctets path.toText octets o.charset o.tables with
    | error cause =>
      rcases SourceFile.error_of_ofOctets hcharset hopen with rfl | rfl | ⟨s, helsewhere, rfl⟩
      · cases listed with
        | false => exact ⟨none, by simp, rfl⟩
        | true => exact ⟨some (.unopened path (.binary path.toText)), by simp [Event.path], rfl⟩
      · cases listed with
        | false => exact ⟨none, by simp, rfl⟩
        | true => exact ⟨some (.unopened path (.language path.toText)), by simp [Event.path], rfl⟩
      · refine ⟨some (.unopened path (.charset s .unknown)), by simp [Event.path], ?_⟩
        dsimp only
        rw [helsewhere]
        rfl
    | ok file =>
      obtain ⟨notes, error, hdrain, -⟩ := SourceFile.drain_of_ofOctets hcharset hopen o.kinds
      dsimp only
      rw [hdrain]
      cases error with
      | none => exact ⟨none, by simp, by simp⟩
      | some e => exact ⟨some (.unscanned path e), by simp [Event.path], by simp⟩

/-! ### Walks that nothing ends -/

/-- All that could end a walk before its time is in order: the name of the character set, and what
the system says of the listed paths and of the ignore files. -/
structure Clear (o : Options) (disk : Disk) : Prop where
  charset : o.charset.Readable o.tables
  /-- A listed path leads to something, or it leads nowhere. -/
  paths : ∀ raw ∈ o.paths, ∀ e, disk.locate (.ofText raw) = .error e →
    Disk.leadsNowhere e = true
  /-- In a folder that the walk goes into it can be told of an ignore file whether it exists. -/
  ignoreFiles : ∀ raw ∈ o.paths, ∀ spot, disk.locate (.ofText raw) = .ok spot →
    ∀ names listable entries, Enters o disk (.ofText raw) spot.there names listable entries →
      ∀ name ∈ o.ignoreFileNames, ∃ found,
        disk.isFile (((Path.ofText raw).below names).append (.ofText name)) = .ok found

variable {root : Path} {place names : List Text} {tree : FileTree} {raw : Text} {v : Visit}

/-- Nothing ends the walk. -/
theorem Clear.halt_not_mem (h : Clear o disk) (hd : disk.root.Distinct) (path : Path)
    (e : SystemError) : .halt path e ∉ visits o disk := by
  intro hv
  obtain ⟨raw, hraw, hv⟩ := List.mem_flatMap.1 hv
  cases hspot : disk.locate (.ofText raw) with
  | error e' =>
    rw [visitsOf_of_error hspot, h.paths raw hraw e' hspot, if_pos rfl, List.mem_singleton] at hv
    cases hv
  | ok spot =>
    obtain ⟨place, there⟩ := spot
    cases there with
    | folder listable entries =>
      rw [visitsOf_of_folder hspot] at hv
      have hdistinct := hd.of_holds (Disk.holds_of_locate hspot)
      have hdue :=
        due_of_mem_visitsIn hdistinct (enters_nil o disk (.ofText raw) listable entries) hv
      rcases hdue with ⟨names, l, inner, e', henters, herror, -⟩ | ⟨names, hdue⟩
      · have hfound := h.ignoreFiles raw hraw _ hspot names l inner henters
        have hload := loadAt_of_loads (loads_iff.2 hfound)
        rw [herror] at hload
        cases hload
      · cases hdue
    | file content =>
      rw [visitsOf_of_other hspot (by simp)] at hv
      cases List.mem_singleton.1 hv
    | link target =>
      rw [visitsOf_of_other hspot (by simp)] at hv
      cases List.mem_singleton.1 hv

theorem Visit.trail_eq (hcharset : o.charset.Readable o.tables)
    (hv : ∀ path e, v ≠ .halt path e) :
    v.trail (scanFile o) = ⟨v.block o.charset o.tables o.kinds o.labels, none⟩ := by
  cases v with
  | scan spot path listed =>
    obtain ⟨failure, -, hscan⟩ :=
      scanFile_eq hcharset path (contentFor path spot) listed
    show scanFile o path (contentFor path spot) listed =
      ⟨(scanFile o path (contentFor path spot) listed).events, none⟩
    rw [hscan]
  | refuse => rfl
  | missing => rfl
  | halt path e => exact absurd rfl (hv path e)

/-- **The events of a walk** that nothing ends are the blocks of its visits. -/
theorem run_of_visits (hd : disk.root.Distinct) (hcharset : o.charset.Readable o.tables)
    (hhalt : ∀ path e, .halt path e ∉ visits o disk) :
    run o disk =
      ⟨(visits o disk).flatMap (Visit.block o.charset o.tables o.kinds o.labels), none⟩ := by
  rw [run_eq hd]
  generalize visits o disk = visits at hhalt ⊢
  induction visits with
  | nil => rfl
  | cons v visits ih =>
    have hv : ∀ path e, v ≠ .halt path e := by
      rintro path e rfl
      exact hhalt path e List.mem_cons_self
    have ih := ih fun path e hmem => hhalt path e (List.mem_cons_of_mem v hmem)
    show (v.trail (scanFile o)).append (Trail.concat _) = _
    rw [ih, Visit.trail_eq hcharset hv, List.flatMap_cons]
    rfl

/-- All that a visit reports is about its path. -/
theorem path_of_mem_block {charset : Codes} {tables : List Charset.Table} {kinds : List Text}
    {labels : List Glob} {e : Event} (hcharset : charset.Readable tables)
    (he : e ∈ v.block charset tables kinds labels) : e.path = v.path := by
  cases v with
  | scan spot path listed =>
    let o : Options := { charset, tables, kinds, labels }
    obtain ⟨failure, hfailure, hscan⟩ :=
      scanFile_eq (o := o) hcharset path (contentFor path spot) listed
    change e ∈ (scanFile o path (contentFor path spot) listed).events at he
    rw [hscan] at he
    rcases List.mem_append.1 he with he | he
    · obtain ⟨note, -, rfl⟩ := List.mem_map.1 he
      rfl
    · obtain ⟨error, herror, rfl⟩ := List.mem_map.1 he
      exact hfailure error (Option.mem_toList.1 herror)
  | refuse => cases List.mem_singleton.1 he; rfl
  | missing => cases List.mem_singleton.1 he; rfl
  | halt => cases he

end Walk

end SourceNotes
