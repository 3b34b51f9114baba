/-
A walk after one file has changed.

When a file gets other content, or can no longer be read, a walk comes to the same things as
before, in the same order: the tree decides on that, and the ignore files. So long as the file is
no ignore file, only what is reported about the file itself can change.

* **`Walk.visits_mapFiles`** — the visits when files have other contents;
* **`Walk.run_blocks`** — the events of a walk, and which of them one file can change.
-/
import SourceNotes.Proofs.Walk.Blocks

namespace SourceNotes

open Ignore

/-- A disk on which the file at a place has other content, or none to be read. -/
def Disk.withFile (place : List Text) (content : Option Octets) (disk : Disk) : Disk :=
  disk.mapFiles fun p old => if p = place then content else old

namespace Walk

/-- The same visit when the files have other contents. -/
def Visit.mapFiles (f : List Text → Option Octets → Option Octets) : Visit → Visit
  | .scan spot path listed => .scan (spot.mapFiles f) path listed
  | .refuse path cause => .refuse path cause
  | .missing raw => .missing raw
  | .halt path cause => .halt path cause

/-- The same visit when the file at a place has other content. -/
def Visit.withFile (place : List Text) (content : Option Octets) : Visit → Visit :=
  Visit.mapFiles fun p old => if p = place then content else old

/-- A file that a walk may read for patterns: an ignore file of a listed folder or of one below it,
or what a link in its place leads to. -/
def IsIgnoreFile (o : Options) (disk : Disk) (place : List Text) : Prop :=
  ∃ raw ∈ o.paths, ∃ spot, disk.locate (.ofText raw) = .ok spot ∧
    ∃ names listable entries, spot.there.Holds names (.folder listable entries) ∧
      ∃ name ∈ o.ignoreFileNames, ∃ content,
        disk.locate (((Path.ofText raw).below names).append (.ofText name)) =
          .ok ⟨place, .file content⟩

variable {f : List Text → Option Octets → Option Octets} {o : Options} {disk : Disk} {root : Path}
  {place names : List Text} {tree top : FileTree} {entries : List (Text × FileTree)}
  {listable : Bool}

/-- Ignore files whose content stays hold the same patterns. -/
theorem loadAt_mapFiles {fileNames : List Text}
    (h : ∀ name ∈ fileNames, ∀ s content,
      disk.locate ((root.below names).append (.ofText name)) = .ok s → s.there = .file content →
        f s.place content = content) :
    loadAt fileNames (disk.mapFiles f) root names = loadAt fileNames disk root names := by
  unfold loadAt
  congr 1
  induction fileNames with
  | nil => rfl
  | cons name fileNames ih =>
    rw [List.mapM_cons, List.mapM_cons, ih fun n hn => h n (List.mem_cons_of_mem name hn),
      Table.readFile_eq, Table.readFile_eq, Disk.isFile_mapFiles,
      Disk.read_mapFiles f disk _ (h name List.mem_cons_self)]

theorem tableAlong_mapFiles (h : ∀ above, above <+: names →
      loadAt o.ignoreFileNames (disk.mapFiles f) root above =
        loadAt o.ignoreFileNames disk root above) :
    tableAlong o (disk.mapFiles f) root names = tableAlong o disk root names := by
  unfold tableAlong Table.ofPlaces
  congr 1
  refine List.map_congr_left fun above habove => ?_
  rw [patternsAt, patternsAt, h above ((List.mem_inits above names).1 habove)]

theorem inOrder_mapFiles (place : List Text) (entries : List (Text × FileTree)) :
    inOrder (entries.map fun e => (e.1, e.2.mapFiles f (place ++ [e.1]))) =
      (inOrder entries).map fun e => (e.1, e.2.mapFiles f (place ++ [e.1])) := by
  unfold inOrder
  rw [List.map_mergeSort (s := fun a b => Text.notAfter a.1 b.1)]
  intro a _ b _
  rfl

/-- Below a folder a walk comes to the same things when files have other contents, as long as no
ignore file is among them. -/
theorem visitsIn_mapFiles (hload : ∀ above listable entries,
      top.Holds above (.folder listable entries) →
        loadAt o.ignoreFileNames (disk.mapFiles f) root above =
          loadAt o.ignoreFileNames disk root above)
    (hholds : top.Holds names tree) :
    visitsIn o (disk.mapFiles f) root place names (tree.mapFiles f (place ++ names)) =
      (visitsIn o disk root place names tree).map (Visit.mapFiles f) := by
  induction tree using FileTree.induct generalizing names with
  | file content => rw [FileTree.mapFiles_file, visitsIn_file, visitsIn_file]; rfl
  | link target => rw [FileTree.mapFiles_link, visitsIn_link, visitsIn_link]; rfl
  | folder listable entries ih =>
    have hsame := hload names listable entries hholds
    have htable : tableAlong o (disk.mapFiles f) root names = tableAlong o disk root names := by
      apply tableAlong_mapFiles
      intro above habove
      obtain ⟨l, inner, hfolder⟩ := hholds.folder_of_prefix habove
      exact hload above l inner hfolder
    rw [FileTree.mapFiles_folder]
    cases hfound : loadAt o.ignoreFileNames disk root names with
    | error e =>
      rw [visitsIn_of_error (hsame.trans hfound), visitsIn_of_error hfound]
      rfl
    | ok ps =>
      cases hrefusal : refusal (root.below names) listable with
      | some cause =>
        rw [visitsIn_of_refusal (hsame.trans hfound) hrefusal, visitsIn_of_refusal hfound hrefusal]
        rfl
      | none =>
        rw [visitsIn_of_listed (hsame.trans hfound) hrefusal, visitsIn_of_listed hfound hrefusal,
          inOrder_mapFiles, List.flatMap_map, List.map_flatMap]
        refine List.flatMap_congr ?_
        rintro ⟨name, there⟩ he
        have hmem := mem_inOrder.1 he
        have hbelow := ih _ hmem (hholds.entry hmem)
        cases there with
        | link target => rw [FileTree.mapFiles_link]; rfl
        | file content =>
          rw [FileTree.mapFiles_file, visitsAt_file, visitsAt_file, htable]
          split
          · simp [Visit.mapFiles, Spot.mapFiles]
          · rfl
        | folder listable' inner =>
          rw [FileTree.mapFiles_folder, visitsAt_folder, visitsAt_folder, htable]
          split
          · rw [← FileTree.mapFiles_folder, List.append_assoc]
            exact hbelow
          · rfl

/-- **The visits of a walk** are the same when files have other contents, as long as no ignore file
is among them. -/
theorem visits_mapFiles (h : ∀ place content, IsIgnoreFile o disk place →
      f place content = content) :
    visits o (disk.mapFiles f) = (visits o disk).map (Visit.mapFiles f) := by
  unfold visits
  rw [List.map_flatMap]
  refine List.flatMap_congr fun raw hraw => ?_
  have hlocate := Disk.locate_mapFiles f disk (.ofText raw)
  cases hspot : disk.locate (.ofText raw) with
  | error e =>
    rw [hspot] at hlocate
    rw [visitsOf_of_error hlocate, visitsOf_of_error hspot]
    cases Disk.leadsNowhere e <;> rfl
  | ok spot =>
    obtain ⟨place, there⟩ := spot
    rw [hspot] at hlocate
    change _ = Except.ok (Spot.mk place (there.mapFiles f place)) at hlocate
    cases there with
    | file content =>
      rw [FileTree.mapFiles_file] at hlocate
      rw [visitsOf_of_other hlocate (by simp), visitsOf_of_other hspot (by simp)]
      simp [Visit.mapFiles, Spot.mapFiles]
    | link target =>
      rw [FileTree.mapFiles_link] at hlocate
      rw [visitsOf_of_other hlocate (by simp), visitsOf_of_other hspot (by simp)]
      simp [Visit.mapFiles, Spot.mapFiles]
    | folder listable entries =>
      have hvisits : visitsIn o (disk.mapFiles f) (.ofText raw) place []
          ((FileTree.folder listable entries).mapFiles f (place ++ [])) =
            (visitsIn o disk (.ofText raw) place [] (.folder listable entries)).map
              (Visit.mapFiles f) := by
        refine visitsIn_mapFiles ?_ (.here _)
        intro above l inner habove
        apply loadAt_mapFiles
        rintro name hname ⟨place', there⟩ content hfile rfl
        exact h place' content
          ⟨raw, hraw, _, hspot, above, l, inner, habove, name, hname, content, hfile⟩
      rw [List.append_nil] at hvisits
      rw [FileTree.mapFiles_folder] at hlocate hvisits
      rw [visitsOf_of_folder hlocate, visitsOf_of_folder hspot, hvisits]

/-! ### One file -/

/-- A visit of what is at a place. -/
def Visit.IsAt (place : List Text) : Visit → Prop
  | .scan spot _ _ => spot.place = place
  | _ => False

variable {charset : Codes} {tables : List Charset.Table} {kinds : List Text} {labels : List Glob}
  {v : Visit} {content : Option Octets}

/-- Other visits than those of the file report what they reported before. -/
theorem block_withFile (hv : ¬ v.IsAt place) :
    (v.withFile place content).block charset tables kinds labels =
      v.block charset tables kinds labels := by
  cases v with
  | scan spot path listed =>
    have hcontent : contentFor path
        (spot.mapFiles fun p old => if p = place then content else old) =
          contentFor path spot := by
      unfold contentFor Spot.mapFiles
      rw [Disk.contentOf_mapFiles]
      intro old _
      exact if_neg hv
    show fileEvents _ _ _ _ _ (contentFor path (Spot.mapFiles _ spot)) _ = _
    rw [hcontent]
    rfl
  | _ => rfl

theorem path_withFile : (v.withFile place content).path = v.path := by
  cases v <;> rfl

/-- Nothing is reported about a path that is left out. -/
theorem filter_block_eq_nil {keeps : Path → Bool} (hcharset : charset.Readable tables)
    (hv : keeps v.path = false) :
    ((v.block charset tables kinds labels).filter fun e => keeps e.path) = [] := by
  rw [List.filter_eq_nil_iff]
  intro e he
  rw [path_of_mem_block hcharset he, hv]
  exact Bool.false_ne_true

theorem visits_withFile (hfile : ¬ IsIgnoreFile o disk place) :
    visits o (disk.withFile place content) =
      (visits o disk).map (Visit.withFile place content) := by
  apply visits_mapFiles
  rintro place' old hignore
  refine if_neg ?_
  rintro rfl
  exact hfile hignore

/-- With other content in the file nothing ends the walk either. -/
theorem run_withFile (hclear : Clear o disk) (hd : disk.root.Distinct)
    (hfile : ¬ IsIgnoreFile o disk place) :
    run o (disk.withFile place content) =
      ⟨(visits o disk).flatMap fun v =>
        (v.withFile place content).block o.charset o.tables o.kinds o.labels, none⟩ := by
  have hhalt (path : Path) (e : SystemError) :
      .halt path e ∉ visits o (disk.withFile place content) := by
    intro hv
    rw [visits_withFile hfile] at hv
    obtain ⟨v, hv, heq⟩ := List.mem_map.1 hv
    cases v with
    | halt =>
      cases heq
      exact hclear.halt_not_mem hd _ _ hv
    | _ => cases heq
  rw [run_of_visits (hd.mapFiles _ []) hclear.charset hhalt, visits_withFile hfile,
    List.flatMap_map]

/-- What is reported about other paths stays as it is. -/
theorem filter_run_withFile (hclear : Clear o disk) (hd : disk.root.Distinct)
    (hfile : ¬ IsIgnoreFile o disk place) {keeps : Path → Bool}
    (hkeeps : ∀ v ∈ visits o disk, v.IsAt place → keeps v.path = false) :
    (run o (disk.withFile place content)).events.filter (fun e => keeps e.path) =
      (run o disk).events.filter fun e => keeps e.path := by
  rw [run_withFile hclear hd hfile, run_of_visits hd hclear.charset (hclear.halt_not_mem hd),
    List.filter_flatMap, List.filter_flatMap]
  refine List.flatMap_congr fun v hv => ?_
  by_cases hat : v.IsAt place
  · have hout := hkeeps v hv hat
    rw [filter_block_eq_nil hclear.charset hout, filter_block_eq_nil hclear.charset]
    rw [path_withFile]
    exact hout
  · rw [block_withFile hat]

/-- **The events of a walk**, each visit with a block of its own. A block depends on the path and
the content alone, and is made of notes in the order of their lines and at most one failure. A file
with other content that is no ignore file changes what is reported about itself. -/
theorem run_blocks (hclear : Clear o disk) (hd : disk.root.Distinct) :
    run o disk =
      ⟨(visits o disk).flatMap (Visit.block o.charset o.tables o.kinds o.labels), none⟩ ∧
    (∀ path content listed,
      (notesIn o.charset o.tables o.kinds path content).Pairwise (fun t u => t.line ≤ u.line) ∧
      ∃ failure : Option WalkError,
        fileEvents o.charset o.tables o.kinds o.labels path content listed =
          ((notesIn o.charset o.tables o.kinds path content).filter
            fun n => wantsLabel o n.label).map (Event.note path) ++
              failure.toList.map Event.failure) ∧
    ((run o disk).failed = true ↔ ∃ error, Event.failure error ∈ (run o disk).events) ∧
    ∀ place content, ¬ IsIgnoreFile o disk place →
      visits o (disk.withFile place content) =
        (visits o disk).map (Visit.withFile place content) ∧
      (run o (disk.withFile place content)).abort = none ∧
      ∀ keeps : Path → Bool, (∀ v ∈ visits o disk, v.IsAt place → keeps v.path = false) →
        (run o (disk.withFile place content)).events.filter (fun e => keeps e.path) =
          (run o disk).events.filter fun e => keeps e.path := by
  refine ⟨run_of_visits hd hclear.charset (hclear.halt_not_mem hd), ?_, Trail.failed_iff, ?_⟩
  · intro path content listed
    obtain ⟨failure, -, hscan⟩ := scanFile_eq hclear.charset path content listed
    exact ⟨pairwise_notesIn hclear.charset o.kinds, failure, congrArg Trail.events hscan⟩
  · intro place content hfile
    refine ⟨visits_withFile hfile, ?_, ?_⟩
    · rw [run_withFile hclear hd hfile]
    · intro keeps hkeeps
      exact filter_run_withFile hclear hd hfile hkeeps

/-- A folder with one source file that cannot be read. -/
def loneDisk : Disk := { root := .folder true [("a.go".toList, .file none)] }

theorem locate_loneDisk : loneDisk.locate (.ofText ['.']) = .ok ⟨[], loneDisk.root⟩ := by
  have hpath : Path.ofText ['.'] = {} := by decide
  rw [hpath, Disk.locate_of_names rfl (by decide) (by decide), Disk.follow.eq_2]

theorem holds_loneDisk {names : List Text} {listable : Bool} {entries : List (Text × FileTree)}
    (h : loneDisk.root.Holds names (.folder listable entries)) :
    names = [] ∧ entries = [("a.go".toList, .file none)] := by
  cases h with
  | here => exact ⟨rfl, rfl⟩
  | inside hmem hinner =>
    cases List.mem_singleton.1 hmem
    cases hinner

/-- There are no ignore files in the folder. -/
theorem locate_loneDisk_of_mem {name : Text} (hname : name ∈ Ignore.defaultFileNames) :
    loneDisk.locate (((Path.ofText ['.']).below []).append (.ofText name)) = .error .notFound := by
  have hfile : ((Path.ofText ['.']).below []).append (.ofText name) = { names := [name] } := by
    revert name
    decide
  obtain ⟨hnul, hshort, hplain, hlookup⟩ : '\x00' ∉ Path.toText { names := [name] } ∧
      Disk.isTooLong { names := [name] } = false ∧ Disk.IsPlain name ∧
      ([("a.go".toList, .file none)] : List (Text × FileTree)).lookup name = none := by
    revert name
    decide
  rw [hfile, Disk.locate_of_names rfl hnul hshort, Disk.follow_of_none rfl hplain hlookup]

theorem clear_loneDisk : Clear {} loneDisk where
  charset := by
    have hname : Charset.ofName "utf-8".toList = .ok .utf8 := rfl
    refine ⟨"utf-8".toList, by decide, by decide, ?_, ?_⟩
    · intro w h
      rw [hname] at h
      cases h
    · intro h
      rw [hname] at h
      cases h
  paths := by
    intro raw hraw e h
    rw [List.mem_singleton.1 hraw, locate_loneDisk] at h
    cases h
  ignoreFiles := by
    intro raw hraw spot hfound names listable entries h name hname
    rw [List.mem_singleton.1 hraw] at hfound ⊢
    rw [locate_loneDisk] at hfound
    cases hfound
    rw [(holds_loneDisk h.holds).1, Disk.isFile, Disk.holds, Disk.find,
      locate_loneDisk_of_mem hname]
    exact ⟨false, rfl⟩

/-- The file can be given content, with no effect on what is reported about other paths. -/
theorem run_blocks_lone :
    Clear {} loneDisk ∧ loneDisk.root.Distinct ∧ ¬ IsIgnoreFile {} loneDisk ["a.go".toList] ∧
      (run {} (loneDisk.withFile ["a.go".toList] (some [0x2F, 0x2F]))).abort = none ∧
      (run {} (loneDisk.withFile ["a.go".toList] (some [0x2F, 0x2F]))).events.filter
          (fun e => e.path ≠ { names := ["a.go".toList] }) =
        (run {} loneDisk).events.filter fun e => e.path ≠ { names := ["a.go".toList] } := by
  have hd : loneDisk.root.Distinct := by
    refine FileTree.distinct_folder (by decide) ?_
    rw [List.forall_mem_singleton]
    exact FileTree.distinct_file none
  have hfile : ¬ IsIgnoreFile {} loneDisk ["a.go".toList] := by
    rintro ⟨raw, hraw, spot, hfound, names, listable, entries, h, name, hname, content, hignore⟩
    rw [List.mem_singleton.1 hraw] at hfound hignore
    rw [locate_loneDisk] at hfound
    cases hfound
    rw [(holds_loneDisk h).1, locate_loneDisk_of_mem hname] at hignore
    cases hignore
  refine ⟨clear_loneDisk, hd, hfile, ?_⟩
  obtain ⟨-, -, -, hframe⟩ := run_blocks clear_loneDisk hd
  obtain ⟨-, habort, hevents⟩ := hframe ["a.go".toList] (some [0x2F, 0x2F]) hfile
  refine ⟨habort, hevents (fun path => path ≠ { names := ["a.go".toList] }) ?_⟩
  intro v hv hat
  have hpath : Path.ofText ['.'] = {} := by decide
  rw [visits, List.flatMap_singleton, visitsOf_of_folder locate_loneDisk, hpath] at hv
  rcases mem_visitsIn_folder hv with ⟨e, -, rfl⟩ | ⟨cause, -, rfl⟩ | ⟨-, e, hmem, hv⟩
  · exact hat.elim
  · exact hat.elim
  · rw [List.mem_singleton.1 hmem] at hv
    rcases mem_visitsAt_iff.1 hv with ⟨content, -, -, rfl⟩ | ⟨listable, entries, h, -, -⟩
    · decide
    · cases h

/-- A link to a name that is too long leads to an error that is not that of a link to nowhere. -/
theorem follow_of_longLink {root : FileTree} {links : Nat} {here : Spot} {above : List Spot}
    {name : Text} {names : List Text} {listable : Bool} {entries : List (Text × FileTree)}
    (hhere : here.there = .folder listable entries) (hname : Disk.IsPlain name)
    (hlookup : entries.lookup name = some (.link (List.replicate 256 'x'))) :
    Disk.follow root (links + 1) (here :: above) (name :: names) = .error .nameTooLong := by
  have hne {s : Text} (hs : s.length < 256) : List.replicate 256 'x' ≠ s := by
    rintro rfl
    rw [List.length_replicate] at hs
    exact Nat.lt_irrefl 256 hs
  have hpieces : Text.pieces '/' (List.replicate 256 'x') = [List.replicate 256 'x'] :=
    Text.pieces_of_not_mem fun hmem => absurd (List.eq_of_mem_replicate hmem) (by decide)
  have hhead : (List.replicate 256 'x').head? ≠ some '/' := by
    rw [List.head?_replicate]
    decide
  rw [Disk.follow_of_link hhere hname hlookup (hne (by decide)) hhead, hpieces]
  refine Disk.follow_of_long hhere ?_ (hne (by decide)) (by decide +kernel)
  rintro (h | h)
  · exact hne (by decide) h
  · exact hne (by decide) h

/-- A folder in which a link with a name that is too long stands in the place of an ignore file. -/
def longLinkDisk : Disk :=
  { root := .folder true [(".gitignore".toList, .link (List.replicate 256 'x')),
      ("a.go".toList,
        .file (some [0x2F, 0x2F, 0x20, 0x54, 0x4F, 0x44, 0x4F, 0x3A, 0x20, 0x61, 0x0A]))] }

/-- It cannot be told whether the ignore file exists. -/
theorem locate_longLinkDisk :
    longLinkDisk.locate { names := [".gitignore".toList] } = .error .nameTooLong := by
  rw [Disk.locate_of_names rfl (by decide) (by decide), Disk.maxLinks,
    follow_of_longLink rfl (by decide) rfl]

/-- Such a link ends the walk before it comes to any file. -/
theorem run_longLinkDisk :
    longLinkDisk.locate (.ofText ['.']) = .ok ⟨[], longLinkDisk.root⟩ ∧
      run {} longLinkDisk = ⟨[], some (.system .nameTooLong)⟩ := by
  have hpath : Path.ofText ['.'] = {} := by decide
  have hspot : longLinkDisk.locate (.ofText ['.']) = .ok ⟨[], longLinkDisk.root⟩ := by
    rw [hpath, Disk.locate_of_names rfl (by decide) (by decide), Disk.follow.eq_2]
  refine ⟨hspot, ?_⟩
  have hd : longLinkDisk.root.Distinct := by
    refine FileTree.distinct_folder ?_ ?_
    · show ([".gitignore".toList, "a.go".toList] : List Text).Nodup
      decide
    · rw [List.forall_mem_cons, List.forall_mem_singleton]
      exact ⟨FileTree.distinct_link _, FileTree.distinct_file _⟩
  have hload : loadAt Ignore.defaultFileNames longLinkDisk {} [] = .error .nameTooLong := by
    have hfile : (Path.below {} []).append (.ofText ".gitignore".toList) =
        { names := [".gitignore".toList] } := by decide
    unfold loadAt defaultFileNames
    rw [List.mapM_cons, hfile, Table.readFile_eq, Disk.isFile, Disk.holds, Disk.find,
      locate_longLinkDisk]
    rfl
  rw [run_eq hd, visits, List.flatMap_singleton, visitsOf_of_folder hspot, hpath,
    visitsIn_of_error hload]
  rfl

end Walk

end SourceNotes
