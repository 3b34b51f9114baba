/-
Which files a walk scans.

Of what is below a listed folder a walk comes to the files that its filters let pass, by folders
that can be listed and that pass as well, and to the folders that cannot be listed. It comes to
each of them once, in the order of the names on the way, and follows no link.

* **`Walk.Due`** — what a walk has to come to;
* **`Walk.due_of_mem_visitsIn`**, **`Walk.mem_visitsIn_of_due`** — it comes to nothing else, and to
  all of that;
* **`Walk.pairwise_visitsIn`** — in which order;
* **`Walk.listed_due`** — both, for a listed folder.
-/
import SourceNotes.Proofs.Text.Pieces
import SourceNotes.Proofs.Walk.Visits

namespace SourceNotes.Walk

open Ignore

section Defs

variable (o : Options) (disk : Disk) (root : Path) (place : List Text) (top : FileTree)

/-- Whether the ignore files of the folders above leave out what is at `names`. -/
def ignoredAt (names : List Text) (isFolder : Bool) : Bool :=
  Table.verdict (patternsAlong o.ignoreFileNames disk root names.dropLast) { names } isFolder

/-- A folder that the filter for folders lets pass. -/
structure FolderPasses (names : List Text) : Prop where
  notExcluded : Glob.anyFits o.excludeFolders (root.below names).name = false
  versionControl : (root.below names).name ∈ versionControlFolders → o.includeVersionControl = true
  hidden : isHidden (root.below names).name = true →
    (root.below names).name ∉ versionControlFolders → o.includeHidden = true
  vendored : (root.below names).name ∈ vendoredFolders → o.includeVendored = true
  notIgnored : ignoredAt o disk root names true = false

/-- A file that the filter for files lets pass. -/
structure FilePasses (names : List Text) : Prop where
  notExcluded : Glob.anyFits o.excludeFiles (root.below names).name = false
  hidden : isHidden (root.below names).name = true → o.includeHidden = true
  notIgnored : ignoredAt o disk root names false = false

/-- Every folder above `names` can be listed, and those below the listed one pass the filter. -/
def Reaches (names : List Text) : Prop :=
  ∀ above listable entries, top.Holds above (.folder listable entries) →
    above <+: names → above ≠ names →
      refusal (root.below above) listable = none ∧ (above ≠ [] → FolderPasses o disk root above)

/-- A folder that a walk goes into: the listed one, or one that can be reached and passes. -/
structure Enters (names : List Text) (listable : Bool) (entries : List (Text × FileTree)) :
    Prop where
  holds : top.Holds names (.folder listable entries)
  reaches : Reaches o disk root top names
  passes : names ≠ [] → FolderPasses o disk root names

/-- What a walk has to come to below the folder `top`, which is listed as `root` and at `place` on
the disk. -/
inductive Due : List Text → Visit → Prop
  | file {names : List Text} {content : Option Octets} (hholds : top.Holds names (.file content))
      (hreaches : Reaches o disk root top names) (hpasses : FilePasses o disk root names) :
      Due names (.scan ⟨place ++ names, .file content⟩ (root.below names) false)
  | folder {names : List Text} {listable : Bool} {entries : List (Text × FileTree)}
      {cause : SystemError} (henters : Enters o disk root top names listable entries)
      (hrefusal : refusal (root.below names) listable = some cause) :
      Due names (.refuse (root.below names) cause)

end Defs

variable {o : Options} {disk : Disk} {root : Path} {place : List Text} {top tree there : FileTree}
  {names : List Text} {name : Text} {listable : Bool} {entries : List (Text × FileTree)} {v : Visit}

theorem ignores_tableAlong_eq_ignoredAt (isFolder : Bool) :
    (tableAlong o disk root names).ignores (root.below (names ++ [name])) isFolder =
      ignoredAt o disk root (names ++ [name]) isFolder := by
  rw [ignores_tableAlong, ignoredAt, List.dropLast_concat]

theorem entersFolder_iff : entersFolder o (tableAlong o disk root names)
    (root.below (names ++ [name])) = true ↔ FolderPasses o disk root (names ++ [name]) := by
  simp only [entersFolder, ignores_tableAlong_eq_ignoredAt, Bool.and_eq_true, Bool.or_eq_true,
    Bool.not_eq_true', List.contains_eq_mem, decide_eq_true_eq, decide_eq_false_iff_not]
  constructor
  · rintro ⟨⟨⟨⟨hexcluded, hversion⟩, hhidden⟩, hvendored⟩, hignored⟩
    refine ⟨hexcluded, fun hmem => ?_, fun hdot hnot => ?_, fun hmem => ?_, hignored⟩
    · exact hversion.resolve_right fun hnot => hnot hmem
    · have h := hhidden.resolve_right hnot
      exact h.resolve_right fun hnodot => Bool.false_ne_true (hnodot.symm.trans hdot)
    · exact hvendored.resolve_right fun hnot => hnot hmem
  · intro h
    refine ⟨⟨⟨⟨h.notExcluded, ?_⟩, ?_⟩, ?_⟩, h.notIgnored⟩
    · exact (Decidable.em _).elim (fun hmem => .inl (h.versionControl hmem)) .inr
    · cases hdot : isHidden (root.below (names ++ [name])).name with
      | false => exact .inl (.inr rfl)
      | true =>
        by_cases hmem : (root.below (names ++ [name])).name ∈ versionControlFolders
        · exact .inr hmem
        · exact .inl (.inl (h.hidden hdot hmem))
    · exact (Decidable.em _).elim (fun hmem => .inl (h.vendored hmem)) .inr

theorem takesFile_iff : takesFile o (tableAlong o disk root names)
    (root.below (names ++ [name])) = true ↔ FilePasses o disk root (names ++ [name]) := by
  simp only [takesFile, ignores_tableAlong_eq_ignoredAt, Bool.and_eq_true, Bool.or_eq_true,
    Bool.not_eq_true']
  constructor
  · rintro ⟨⟨hexcluded, hhidden⟩, hignored⟩
    refine ⟨hexcluded, fun hdot => ?_, hignored⟩
    exact hhidden.resolve_right fun hnodot => Bool.false_ne_true (hnodot.symm.trans hdot)
  · intro h
    refine ⟨⟨h.notExcluded, ?_⟩, h.notIgnored⟩
    cases hdot : isHidden (root.below (names ++ [name])).name with
    | false => exact .inr rfl
    | true => exact .inl (h.hidden hdot)

/-- A walk goes into the listed folder. -/
theorem enters_nil (o : Options) (disk : Disk) (root : Path) (listable : Bool)
    (entries : List (Text × FileTree)) :
    Enters o disk root (.folder listable entries) [] listable entries where
  holds := .here _
  reaches := by
    intro above _ _ _ hprefix hne
    exact absurd (List.prefix_nil.1 hprefix) hne
  passes := fun hne => absurd rfl hne

/-- One folder further down. -/
theorem Enters.reaches_entry (hd : top.Distinct)
    (henters : Enters o disk root top names listable entries)
    (hlisted : refusal (root.below names) listable = none) :
    Reaches o disk root top (names ++ [name]) := by
  intro a listable' entries' ha hle hne
  rcases List.prefix_concat_iff.1 hle with rfl | hle
  · exact absurd rfl hne
  by_cases heq : a = names
  · subst heq
    cases henters.holds.unique hd ha
    exact ⟨hlisted, henters.passes⟩
  · exact henters.reaches a listable' entries' ha hle heq

/-! ### What is due, and nothing else -/

theorem mem_visitsIn_folder
    (hv : v ∈ visitsIn o disk root place names (.folder listable entries)) :
    (∃ e, loadAt o.ignoreFileNames disk root names = .error e ∧ v = .halt (root.below names) e) ∨
      (∃ cause, refusal (root.below names) listable = some cause ∧
        v = .refuse (root.below names) cause) ∨
      (refusal (root.below names) listable = none ∧
        ∃ e ∈ entries, v ∈ visitsAt o disk root place names e) := by
  cases hload : loadAt o.ignoreFileNames disk root names with
  | error e =>
    rw [visitsIn_of_error hload, List.mem_singleton] at hv
    exact .inl ⟨e, rfl, hv⟩
  | ok ps =>
    cases hrefusal : refusal (root.below names) listable with
    | some cause =>
      rw [visitsIn_of_refusal hload hrefusal, List.mem_singleton] at hv
      exact .inr (.inl ⟨cause, rfl, hv⟩)
    | none =>
      rw [visitsIn_of_listed hload hrefusal] at hv
      obtain ⟨e, he, hv⟩ := List.mem_flatMap.1 hv
      exact .inr (.inr ⟨rfl, e, mem_inOrder.1 he, hv⟩)

theorem mem_visitsAt_iff : v ∈ visitsAt o disk root place names (name, tree) ↔
    (∃ content, tree = .file content ∧ FilePasses o disk root (names ++ [name]) ∧
      v = .scan ⟨place ++ (names ++ [name]), tree⟩ (root.below (names ++ [name])) false) ∨
    (∃ listable entries, tree = .folder listable entries ∧
      FolderPasses o disk root (names ++ [name]) ∧
      v ∈ visitsIn o disk root place (names ++ [name]) tree) := by
  rw [← takesFile_iff, ← entersFolder_iff]
  cases tree with
  | link target => simp [visitsAt]
  | file content => simp [visitsAt]
  | folder listable entries => simp [visitsAt]

/-- A walk comes only to what is due, or is ended by the ignore files of a folder. -/
theorem due_of_mem_visitsIn (hd : top.Distinct)
    (henters : Enters o disk root top names listable entries)
    (hv : v ∈ visitsIn o disk root place names (.folder listable entries)) :
    (∃ above listable entries e, Enters o disk root top above listable entries ∧
      loadAt o.ignoreFileNames disk root above = .error e ∧ v = .halt (root.below above) e) ∨
    ∃ due, Due o disk root place top due v := by
  generalize hfolder : FileTree.folder listable entries = tree at hv
  induction tree using FileTree.induct generalizing names listable entries with
  | file => cases hfolder
  | link => cases hfolder
  | folder listable entries ih =>
    cases hfolder
    rcases mem_visitsIn_folder hv with
      ⟨e, hload, rfl⟩ | ⟨cause, hrefusal, rfl⟩ | ⟨hlisted, ⟨name, there⟩, hmem, hv⟩
    · exact .inl ⟨names, listable, entries, e, henters, hload, rfl⟩
    · exact .inr ⟨names, .folder henters hrefusal⟩
    · have hentry := henters.holds.entry hmem
      have hbelow : Reaches o disk root top (names ++ [name]) := henters.reaches_entry hd hlisted
      rcases mem_visitsAt_iff.1 hv with ⟨content, rfl, hfile, rfl⟩ | ⟨l, inner, rfl, hfolder, hv⟩
      · exact .inr ⟨_, .file hentry hbelow hfile⟩
      · exact ih _ hmem ⟨hentry, hbelow, fun _ => hfolder⟩ rfl hv

/-- What is below one place is found further down. -/
theorem holds_split {above rest : List Text} (hd : top.Distinct) (hholds : top.Holds above tree)
    (h : top.Holds (above ++ rest) there) : tree.Holds rest there := by
  induction hholds with
  | here => exact h
  | inside hmem hinner ih =>
    cases h with
    | inside hmem' hinner' =>
      cases hd.eq_of_mem hmem hmem'
      exact ih (hd.of_holds (.inside hmem (.here _))) hinner'

theorem Due.exists_holds {due : List Text} (h : Due o disk root place top due v) :
    ∃ tree, top.Holds due tree := by
  cases h with
  | file hholds => exact ⟨_, hholds⟩
  | folder henters => exact ⟨_, henters.holds⟩

theorem Due.reaches {due : List Text} (h : Due o disk root place top due v) :
    Reaches o disk root top due := by
  cases h with
  | file _ hreaches => exact hreaches
  | folder henters => exact henters.reaches

/-- Folders on the way to what is due, that one included, pass the filter. -/
theorem Due.folderPasses {due : List Text} (hd : top.Distinct)
    (h : Due o disk root place top due v) (hholds : top.Holds names (.folder listable entries))
    ( hprefix : names <+: due) (hne : names ≠ []) : FolderPasses o disk root names := by
  by_cases heq : names = due
  · subst heq
    cases h with
    | file hfile => cases hholds.unique hd hfile
    | folder henters => exact henters.passes hne
  · exact (h.reaches names listable entries hholds hprefix heq).2 hne

/-- What is due at an entry of a folder or below it is come to there, if it is come to in the entry
where that is a folder. -/
theorem Due.mem_visitsAt {rest : List Text} {inner : FileTree} (hd : top.Distinct)
    (hdue : Due o disk root place top (names ++ name :: rest) v)
    (hentry : top.Holds (names ++ [name]) inner) (hinner : inner.Holds rest there)
    (hfolder : ∀ listable entries, inner = .folder listable entries →
      FolderPasses o disk root (names ++ [name]) →
        v ∈ visitsIn o disk root place (names ++ [name]) inner) :
    v ∈ visitsAt o disk root place names (name, inner) := by
  rw [mem_visitsAt_iff]
  cases inner with
  | link target =>
    cases hinner
    cases hdue with
    | file hfile => cases hentry.unique hd hfile
    | folder henters => cases hentry.unique hd henters.holds
  | file content =>
    cases hinner
    cases hdue with
    | file hfile _ hpasses =>
      cases hentry.unique hd hfile
      exact .inl ⟨content, rfl, hpasses, rfl⟩
    | folder henters => cases hentry.unique hd henters.holds
  | folder listable' inner =>
    have hpasses : FolderPasses o disk root (names ++ [name]) :=
      hdue.folderPasses hd hentry ⟨rest, by simp⟩ (by simp)
    exact .inr ⟨listable', inner, rfl, hpasses, hfolder listable' inner rfl hpasses⟩

/-- A walk that is not ended comes to all that is due. -/
theorem mem_visitsIn_of_due {due : List Text} (hd : top.Distinct)
    (hholds : top.Holds names (.folder listable entries))
    (hhalt : ∀ path e, Visit.halt path e ∉
      visitsIn o disk root place names (.folder listable entries))
    (hdue : Due o disk root place top due v) ( hprefix : names <+: due) :
    v ∈ visitsIn o disk root place names (.folder listable entries) := by
  generalize hfolder : FileTree.folder listable entries = tree at hholds hhalt ⊢
  induction tree using FileTree.induct generalizing names listable entries with
  | file => cases hfolder
  | link => cases hfolder
  | folder listable entries ih =>
    cases hfolder
    cases hload : loadAt o.ignoreFileNames disk root names with
    | error e =>
      rw [visitsIn_of_error hload] at hhalt
      exact absurd List.mem_cons_self (hhalt _ _)
    | ok ps =>
      obtain ⟨rest, rfl⟩ := hprefix
      rcases rest with _ | ⟨name, rest⟩
      · rw [List.append_nil] at hdue
        cases hdue with
        | file hfile => cases hholds.unique hd hfile
        | folder henters hrefusal =>
          cases hholds.unique hd henters.holds
          rw [visitsIn_of_refusal hload hrefusal]
          exact List.mem_singleton_self _
      · have hlisted := (hdue.reaches names listable entries hholds (List.prefix_append ..)
          (by simp)).1
        rw [visitsIn_of_listed hload hlisted] at hhalt ⊢
        have hprefix : names ++ [name] <+: names ++ name :: rest := ⟨rest, by simp⟩
        obtain ⟨t, ht⟩ := hdue.exists_holds
        cases holds_split hd hholds ht with
        | @inside _ _ _ _ inner _ hmem hinner =>
          have hentry := hholds.entry hmem
          refine List.mem_flatMap.2 ⟨(name, inner), mem_inOrder.2 hmem, ?_⟩
          apply hdue.mem_visitsAt hd hentry hinner
          rintro listable' inner rfl hpasses
          apply ih _ hmem hprefix rfl hentry
          intro path e hinside
          apply hhalt path e
          exact List.mem_flatMap.2 ⟨_, mem_inOrder.2 hmem,
            mem_visitsAt_iff.2 (.inr ⟨listable', inner, rfl, hpasses, hinside⟩)⟩

/-- The path of a visit. -/
def Visit.path : Visit → Path
  | .scan _ path _ => path
  | .refuse path _ => path
  | .missing raw => .ofText raw
  | .halt path _ => path

/-- What a walk comes to in a tree is in the tree. -/
theorem exists_holds_of_mem_visitsIn (hv : v ∈ visitsIn o disk root place names tree) :
    ∃ rest there, tree.Holds rest there ∧ v.path = root.below (names ++ rest) := by
  induction tree using FileTree.induct generalizing names with
  | file content =>
    rw [visitsIn_file, List.mem_singleton] at hv
    exact ⟨[], _, .here _, by rw [hv, List.append_nil]; rfl⟩
  | link target =>
    rw [visitsIn_link, List.mem_singleton] at hv
    exact ⟨[], _, .here _, by rw [hv, List.append_nil]; rfl⟩
  | folder listable entries ih =>
    rcases mem_visitsIn_folder hv with ⟨e, -, rfl⟩ | ⟨cause, -, rfl⟩ | ⟨-, ⟨name, there⟩, hmem, hv⟩
    · exact ⟨[], _, .here _, by rw [List.append_nil]; rfl⟩
    · exact ⟨[], _, .here _, by rw [List.append_nil]; rfl⟩
    · rcases mem_visitsAt_iff.1 hv with ⟨-, -, -, rfl⟩ | ⟨-, -, -, -, hv⟩
      · exact ⟨[name], _, .inside hmem (.here _), rfl⟩
      · obtain ⟨rest, inner, hholds, hpath⟩ := ih _ hmem hv
        exact ⟨name :: rest, inner, .inside hmem hholds,
          by rw [hpath, List.append_assoc, List.singleton_append]⟩

/-- What a walk comes to in a tree is at the tree or below it. -/
theorem path_of_mem_visitsIn (hv : v ∈ visitsIn o disk root place names tree) :
    ∃ rest, v.path = root.below (names ++ rest) := by
  obtain ⟨rest, _, -, hpath⟩ := exists_holds_of_mem_visitsIn hv
  exact ⟨rest, hpath⟩

theorem path_of_mem_visitsAt {e : Text × FileTree} (hv : v ∈ visitsAt o disk root place names e) :
    ∃ rest, v.path = root.below (names ++ e.1 :: rest) := by
  rcases mem_visitsAt_iff.1 hv with ⟨-, -, -, rfl⟩ | ⟨-, -, -, -, hv⟩
  · exact ⟨[], rfl⟩
  · obtain ⟨rest, hpath⟩ := path_of_mem_visitsIn hv
    exact ⟨rest, by rw [hpath, List.append_assoc, List.singleton_append]⟩

/-- The entries of a folder in the order of their names. -/
theorem pairwise_inOrder (h : (entries.map (·.1)).Nodup) :
    (inOrder entries).Pairwise fun a b => a.1 < b.1 := by
  have hle : (inOrder entries).Pairwise fun a b => Text.notAfter a.1 b.1 = true := by
    apply List.pairwise_mergeSort
    · intro a b c hab hbc
      exact Text.notAfter_trans hab hbc
    · intro a b
      rw [Bool.or_eq_true]
      exact Text.notAfter_total a.1 b.1
  have hne := List.pairwise_map.1 (nodup_inOrder h)
  refine hle.imp₂ ?_ hne
  intro a b hab hdiffers
  rw [Text.notAfter_iff, List.not_lt, List.le_iff_lt_or_eq] at hab
  exact hab.resolve_right hdiffers

/-- **A walk goes through a folder in the order of the names**, and so comes to nothing twice. -/
theorem pairwise_visitsIn (hd : tree.Distinct) :
    (visitsIn o disk root place names tree).Pairwise fun v w => v.path.names < w.path.names := by
  induction tree using FileTree.induct generalizing names with
  | file content => rw [visitsIn_file]; exact List.pairwise_singleton _ _
  | link target => rw [visitsIn_link]; exact List.pairwise_singleton _ _
  | folder listable entries ih =>
    cases hload : loadAt o.ignoreFileNames disk root names with
    | error e => rw [visitsIn_of_error hload]; exact List.pairwise_singleton _ _
    | ok ps =>
      cases hrefusal : refusal (root.below names) listable with
      | some cause =>
        rw [visitsIn_of_refusal hload hrefusal]
        exact List.pairwise_singleton _ _
      | none =>
        rw [visitsIn_of_listed hload hrefusal, List.pairwise_flatMap]
        constructor
        · intro e he
          obtain ⟨name, there⟩ := e
          have hmem := mem_inOrder.1 he
          have hbelow : (visitsIn o disk root place (names ++ [name]) there).Pairwise
              fun v w => v.path.names < w.path.names :=
            ih _ hmem (hd.of_holds (.inside hmem (.here _)))
          cases there with
          | link target => exact List.Pairwise.nil
          | file content =>
            rw [visitsAt_file]
            split
            · exact List.pairwise_singleton _ _
            · exact List.Pairwise.nil
          | folder listable' inner =>
            rw [visitsAt_folder]
            split
            · exact hbelow
            · exact List.Pairwise.nil
        · refine (pairwise_inOrder (hd [] listable entries (.here _))).imp ?_
          intro e e' hlt v hv w hw
          obtain ⟨rest, hpath⟩ := path_of_mem_visitsAt hv
          obtain ⟨rest', hpath'⟩ := path_of_mem_visitsAt hw
          rw [hpath, hpath']
          refine List.append_left_lt (List.append_left_lt ?_)
          exact List.cons_lt_cons_iff.2 (.inl hlt)

/-- **Which files a walk scans.** Where a walk that is not ended comes to a folder that is listed,
it comes to what is due there and to nothing else, to each once, and in the order of the names. -/
theorem listed_due {raw : Text} (hraw : raw ∈ o.paths) (hrun : (run o disk).abort = none)
    (hspot : disk.locate (.ofText raw) = .ok ⟨place, .folder listable entries⟩)
    (hd : (FileTree.folder listable entries).Distinct) :
    ∃ visits : List Visit,
      (∀ scan, listed o scan disk raw = .concat (visits.map (Visit.trail scan))) ∧
      (∀ v, v ∈ visits ↔
        ∃ names, Due o disk (.ofText raw) place (.folder listable entries) names v) ∧
      visits.Pairwise fun v w => v.path.names < w.path.names := by
  have hlisted (scan : Scan) : listed o scan disk raw =
      .concat ((visitsOf o disk raw).map (Visit.trail scan)) := by
    apply listed_eq
    intro spot hspot'
    rw [hspot] at hspot'
    cases hspot'
    exact hd
  rw [visitsOf_of_folder hspot] at hlisted
  have hhalt (path : Path) (e : SystemError) : .halt path e ∉
      visitsIn o disk (.ofText raw) place [] (.folder listable entries) := by
    intro hmem
    have habort := Trail.abort_concat.1 hrun _ (List.mem_map_of_mem hraw)
    rw [hlisted, Trail.abort_concat] at habort
    cases habort _ (List.mem_map_of_mem hmem)
  refine ⟨_, hlisted, ?_, pairwise_visitsIn hd⟩
  intro v
  constructor
  · intro hv
    have hdue := due_of_mem_visitsIn hd (enters_nil o disk (.ofText raw) listable entries) hv
    rcases hdue with ⟨above, -, -, e, -, -, rfl⟩ | hdue
    · exact absurd hv (hhalt _ e)
    · exact hdue
  · rintro ⟨names, hdue⟩
    exact mem_visitsIn_of_due hd (.here _) hhalt hdue List.nil_prefix

/-- A file that cannot be read, beside a folder that cannot be listed. -/
def guardedDisk : Disk :=
  { root := .folder true [("a.go".toList, .file none), ("b".toList, .folder false [])] }

/-- The walk of this disk is not ended. -/
theorem listed_due_guarded :
    ['.'] ∈ ({ ignoreFileNames := [] } : Options).paths ∧
      (run { ignoreFileNames := [] } guardedDisk).abort = none ∧
      guardedDisk.locate (.ofText ['.']) = .ok ⟨[], guardedDisk.root⟩ ∧
      guardedDisk.root.Distinct ∧
      ∃ visits : List Visit,
        (∀ scan, listed { ignoreFileNames := [] } scan guardedDisk ['.'] =
          .concat (visits.map (Visit.trail scan))) ∧
        (∀ v, v ∈ visits ↔ ∃ names,
          Due { ignoreFileNames := [] } guardedDisk (.ofText ['.']) [] guardedDisk.root names v) ∧
        visits.Pairwise fun v w => v.path.names < w.path.names := by
  have hraw : ['.'] ∈ ({ ignoreFileNames := [] } : Options).paths := List.mem_singleton_self _
  have hpath : Path.ofText ['.'] = {} := by decide
  have hspot : guardedDisk.locate (.ofText ['.']) = .ok ⟨[], guardedDisk.root⟩ := by
    rw [hpath, Disk.locate_of_names rfl (by decide) (by decide)]
    exact Disk.follow.eq_2 ..
  have hd : guardedDisk.root.Distinct := by
    refine FileTree.distinct_folder (by decide) ?_
    rw [List.forall_mem_cons, List.forall_mem_singleton]
    exact ⟨FileTree.distinct_file _, FileTree.distinct_folder List.nodup_nil (by simp)⟩
  have hrun : (run { ignoreFileNames := [] } guardedDisk).abort = none := by
    rw [run_eq hd, Trail.abort_concat, visits, List.flatMap_singleton, visitsOf_of_folder hspot]
    intro a ha
    obtain ⟨v, hv, rfl⟩ := List.mem_map.1 ha
    rcases mem_visitsIn_folder hv with ⟨e, h, -⟩ | ⟨cause, -, rfl⟩ | ⟨-, ⟨name, there⟩, hmem, hv⟩
    · cases h
    · rfl
    simp only [List.mem_cons, List.not_mem_nil, or_false, Prod.mk.injEq] at hmem
    rcases mem_visitsAt_iff.1 hv with ⟨content, rfl, -, rfl⟩ | ⟨listable, entries, rfl, -, hv⟩
    · rcases hmem with ⟨rfl, h⟩ | ⟨-, h⟩ <;> cases h
      rfl
    · rcases mem_visitsIn_folder hv with ⟨e, h, -⟩ | ⟨cause, -, rfl⟩ | ⟨-, e, hmem', -⟩
      · cases h
      · rfl
      · rcases hmem with ⟨-, h⟩ | ⟨-, h⟩ <;> cases h
        cases hmem'
  exact ⟨hraw, hrun, hspot, hd, listed_due hraw hrun hspot hd⟩

/-- A folder whose only ignore file is a link. -/
def linkedDisk (target : Text) : Disk :=
  { root := .folder true [(".gitignore".toList, .link target),
      ("a.go".toList,
        .file (some [0x2F, 0x2F, 0x20, 0x54, 0x4F, 0x44, 0x4F, 0x3A, 0x20, 0x78, 0x0A])),
      ("rules".toList, .file (some [0x2A]))] }

theorem distinct_linkedDisk (target : Text) : (linkedDisk target).root.Distinct := by
  refine FileTree.distinct_folder ?_ ?_
  · show ([".gitignore".toList, "a.go".toList, "rules".toList] : List Text).Nodup
    decide
  · rw [List.forall_mem_cons, List.forall_mem_cons, List.forall_mem_singleton]
    exact ⟨FileTree.distinct_link target, FileTree.distinct_file _, FileTree.distinct_file _⟩

/-- Where the link leads. -/
theorem find_linkedDisk {target : Text} (hne : target ≠ []) (hrelative : target.head? ≠ some '/')
    (hpieces : Text.pieces '/' target = [target]) :
    (linkedDisk target).find { names := [".gitignore".toList] } =
      (Disk.follow (linkedDisk target).root 39 [⟨[], (linkedDisk target).root⟩] [target]).map
        Spot.there := by
  rw [Disk.find, Disk.locate_of_names rfl (by decide) (by decide)]
  rw [Disk.maxLinks, Disk.follow_of_link rfl (by decide) rfl hne hrelative, hpieces]
  rfl

/-- The ignore files of the folder, by what the link leads to. -/
theorem loadAt_linkedDisk {target : Text} {ps : List Pattern}
    (hread : Table.readFile (linkedDisk target) {} { names := [".gitignore".toList] } = .ok ps) :
    loadAt Ignore.defaultFileNames (linkedDisk target) {} [] = .ok ps := by
  have hother : (linkedDisk target).isFile { names := [".todosignore".toList] } = .ok false := by
    rw [Disk.isFile, Disk.holds, Disk.find, Disk.locate_of_names rfl (by decide) (by decide),
      Disk.follow_of_none rfl (by decide) rfl]
    rfl
  have hpath : (Path.below {} []).append (.ofText ".gitignore".toList) =
      { names := [".gitignore".toList] } := by decide
  have hpath' : (Path.below {} []).append (.ofText ".todosignore".toList) =
      { names := [".todosignore".toList] } := by decide
  unfold loadAt defaultFileNames
  rw [List.mapM_cons, List.mapM_cons, hpath, hpath', hread, Table.readFile_eq _ { names := [_] },
    hother]
  show Except.ok (ps ++ []) = _
  rw [List.append_nil]

/-- What the walk comes to there. -/
theorem visits_linkedDisk {target : Text} {ps : List Pattern}
    (hread : Table.readFile (linkedDisk target) {} { names := [".gitignore".toList] } = .ok ps) :
    (visits {} (linkedDisk target)).map Visit.path =
      (["a.go".toList, "rules".toList].filter fun name =>
        !Table.verdict ps { names := [name] } false).map fun name => { names := [name] } := by
  have hpath : Path.ofText ['.'] = {} := by decide
  have hspot : (linkedDisk target).locate (.ofText ['.']) = .ok ⟨[], (linkedDisk target).root⟩ := by
    rw [hpath, Disk.locate_of_names rfl (by decide) (by decide)]
    exact Disk.follow.eq_2 ..
  have hload := loadAt_linkedDisk hread
  have hpatterns : patternsAlong Ignore.defaultFileNames (linkedDisk target) {} [] = ps := by
    show patternsAt _ _ _ [] ++ [] = ps
    rw [List.append_nil, patternsAt, hload]
    rfl
  have hfile {name : Text} (content : Option Octets) (hname : isHidden name = false) :
      (visitsAt {} (linkedDisk target) {} [] [] (name, .file content)).map Visit.path =
        if Table.verdict ps { names := [name] } false then [] else [{ names := [name] }] := by
    have hignores := ignores_tableAlong {} (linkedDisk target) {} [] name false
    have hpassed : takesFile {} (tableAlong {} (linkedDisk target) {} [])
        (Path.below {} ([] ++ [name])) = !Table.verdict ps { names := [name] } false := by
      unfold takesFile
      rw [hignores, hpatterns]
      show (!false && (false || !isHidden name) && _) = _
      rw [hname]
      rfl
    rw [visitsAt_file, hpassed]
    cases Table.verdict ps { names := [name] } false <;> rfl
  rw [visits, List.flatMap_singleton, visitsOf_of_folder hspot, hpath,
    visitsIn_of_listed hload rfl, inOrder, List.mergeSort_of_pairwise]
  · rw [List.flatMap_cons, List.flatMap_cons, List.flatMap_singleton, List.map_append,
      List.map_append, hfile _ rfl, hfile _ rfl]
    show [] ++ _ = _
    rw [List.nil_append, List.filter_cons, List.filter_singleton]
    cases Table.verdict ps { names := ["a.go".toList] } false <;>
      cases Table.verdict ps { names := ["rules".toList] } false <;> rfl
  · simp +decide

/-- Where it leads to a file with a star in it, nothing is scanned. -/
theorem visits_linkedDisk_rules : visits {} (linkedDisk "rules".toList) = [] := by
  have hfound : (linkedDisk "rules".toList).find { names := [".gitignore".toList] } =
      .ok (.file (some [0x2A])) := by
    rw [find_linkedDisk (by decide) (by decide) (by decide),
      Disk.follow_of_some rfl (by decide) rfl (by simp), Disk.follow.eq_2]
    rfl
  have hread : Table.readFile (linkedDisk "rules".toList) {} { names := [".gitignore".toList] } =
      .ok [{ glob := ['*'], base := {} }] := by
    have htext : Charset.decodeLenient [0x2A] = ['*'] := by
      simp [Charset.decodeLenient, Charset.utf8Step]
    rw [Table.readFile_eq, Disk.isFile, Disk.holds, Disk.read, hfound]
    show Except.ok (patternsOf [0x2A] {}) = _
    rw [patternsOf, htext]
    rfl
  have hglob : Glob.ofText ['*'] = [.anyRun] := by
    simp [Glob.ofText, Glob.ofCodes, Codes.ofText]
  have hall : ∀ name ∈ ["a.go".toList, "rules".toList],
      Table.verdict [{ glob := ['*'], base := {} }] { names := [name] } false = true := by
    intro name hname
    show (if (Glob.ofText ['*']).fits name then true else false) = true
    rw [hglob]
    revert name
    decide
  have hvisits := visits_linkedDisk hread
  rw [List.filter_eq_nil_iff.2 (by simpa using hall), List.map_nil,
    List.map_eq_nil_iff] at hvisits
  exact hvisits

/-- Where it leads nowhere, both files are scanned. -/
theorem visits_linkedDisk_nothing :
    (visits {} (linkedDisk "nothing".toList)).map Visit.path =
      [{ names := ["a.go".toList] }, { names := ["rules".toList] }] := by
  have hlost : (linkedDisk "nothing".toList).find { names := [".gitignore".toList] } =
      .error .notFound := by
    rw [find_linkedDisk (by decide) (by decide) (by decide),
      Disk.follow_of_none rfl (by decide) rfl]
    rfl
  have hread : Table.readFile (linkedDisk "nothing".toList) {}
      { names := [".gitignore".toList] } = .ok [] := by
    rw [Table.readFile_eq, Disk.isFile, Disk.holds, hlost]
    rfl
  rw [visits_linkedDisk hread]
  rfl

/-- An ignore file that is a link is followed: what is scanned depends on where it leads. -/
theorem run_linkedDisk :
    visits {} (linkedDisk "rules".toList) = [] ∧ run {} (linkedDisk "rules".toList) = {} ∧
      (visits {} (linkedDisk "nothing".toList)).map Visit.path =
        [{ names := ["a.go".toList] }, { names := ["rules".toList] }] := by
  refine ⟨visits_linkedDisk_rules, ?_, visits_linkedDisk_nothing⟩
  rw [run_eq (distinct_linkedDisk _), visits_linkedDisk_rules]
  rfl

end SourceNotes.Walk
