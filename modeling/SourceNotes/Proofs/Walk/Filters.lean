/-
Walks with laxer filters.

A walk that leaves less out enters more folders, and so reads more ignore files. Those have no say
about what is outside their folders: the walk comes to all that it came to before, in the same
order, and to more in between. So long as nothing ends it, it reports all that was reported before.

* **`Walk.Options.Within`** — options that leave out no more than others;
* **`Walk.visits_sublist`** — what a walk comes to with stricter and with laxer filters;
* **`Walk.run_sublist`** — what it reports;
* **`Walk.run_hiddenLinkDisk`** — a laxer walk that is ended in a folder that the stricter one
  leaves out.
-/
import Mathlib.Data.List.Flatten
import SourceNotes.Proofs.Walk.Frame

namespace SourceNotes.Walk

open Ignore

namespace Trail

variable {trails rest : List Trail}

theorem events_concat (h : (concat trails).abort = none) :
    (concat trails).events = trails.flatMap Trail.events := by
  rw [abort_concat] at h
  induction trails with
  | nil => rfl
  | cons a trails ih =>
    rw [List.forall_mem_cons] at h
    rw [List.flatMap_cons, ← ih h.2]
    show (a.append (concat trails)).events = _
    rw [append, h.1]

/-- With some trails left out there is less to report, if nothing ends the whole of them. -/
theorem concat_sublist (hsub : trails.Sublist rest) (h : (concat rest).abort = none) :
    (concat trails).abort = none ∧ (concat trails).events.Sublist (concat rest).events := by
  have hnone : (concat trails).abort = none := by
    rw [abort_concat] at h ⊢
    intro a ha
    exact h a (hsub.subset ha)
  refine ⟨hnone, ?_⟩
  rw [events_concat hnone, events_concat h]
  exact hsub.flatMap _

end Trail

/-- Options that leave out no more than others, and are the same in all that is no filter. -/
structure Options.Within (strict lax : Options) : Prop where
  paths : lax.paths = strict.paths
  kinds : lax.kinds = strict.kinds
  charset : lax.charset = strict.charset
  tables : lax.tables = strict.tables
  labels : lax.labels = strict.labels
  ignoreFileNames : lax.ignoreFileNames = strict.ignoreFileNames
  excludeFiles : lax.excludeFiles ⊆ strict.excludeFiles
  excludeFolders : lax.excludeFolders ⊆ strict.excludeFolders
  includeHidden : strict.includeHidden = true → lax.includeHidden = true
  includeVersionControl : strict.includeVersionControl = true → lax.includeVersionControl = true
  includeVendored : strict.includeVendored = true → lax.includeVendored = true

variable {strict lax : Options} {disk : Disk} {root : Path} {place names : List Text}
  {tree : FileTree}

/-! ### Filters -/

theorem anyFits_eq_false_of_subset {globs others : List Glob} {name : Text} (h : globs ⊆ others)
    (hfits : Glob.anyFits others name = false) : Glob.anyFits globs name = false := by
  rw [Glob.anyFits, List.any_eq_false] at hfits ⊢
  intro g hg
  exact hfits g (h hg)

theorem ignoredAt_congr (h : lax.ignoreFileNames = strict.ignoreFileNames) (isFolder : Bool) :
    ignoredAt lax disk root names isFolder = ignoredAt strict disk root names isFolder := by
  rw [ignoredAt, ignoredAt, h]

theorem FolderPasses.mono (hwithin : strict.Within lax) (h : FolderPasses strict disk root names) :
    FolderPasses lax disk root names where
  notExcluded := anyFits_eq_false_of_subset hwithin.excludeFolders h.notExcluded
  versionControl := fun hmem => hwithin.includeVersionControl (h.versionControl hmem)
  hidden := fun hdot hmem => hwithin.includeHidden (h.hidden hdot hmem)
  vendored := fun hmem => hwithin.includeVendored (h.vendored hmem)
  notIgnored := (ignoredAt_congr hwithin.ignoreFileNames true).trans h.notIgnored

theorem FilePasses.mono (hwithin : strict.Within lax) (h : FilePasses strict disk root names) :
    FilePasses lax disk root names where
  notExcluded := anyFits_eq_false_of_subset hwithin.excludeFiles h.notExcluded
  hidden := fun hdot => hwithin.includeHidden (h.hidden hdot)
  notIgnored := (ignoredAt_congr hwithin.ignoreFileNames false).trans h.notIgnored

/-! ### Visits -/

/-- One entry of a folder, by what the walks come to in it where it is a folder itself. -/
theorem visitsAt_sublist (hwithin : strict.Within lax) {e : Text × FileTree}
    (hinner : (visitsIn strict disk root place (names ++ [e.1]) e.2).Sublist
      (visitsIn lax disk root place (names ++ [e.1]) e.2)) :
    (visitsAt strict disk root place names e).Sublist (visitsAt lax disk root place names e) := by
  obtain ⟨name, there⟩ := e
  cases there with
  | link target => exact List.Sublist.refl []
  | file content =>
    rw [visitsAt_file, visitsAt_file]
    split
    · next htakes =>
      have hlax := takesFile_iff.2 ((takesFile_iff.1 htakes).mono hwithin)
      rw [if_pos hlax]
    · exact List.nil_sublist _
  | folder listable inner =>
    rw [visitsAt_folder, visitsAt_folder]
    split
    · next henters =>
      have hlax := entersFolder_iff.2 ((entersFolder_iff.1 henters).mono hwithin)
      rw [if_pos hlax]
      exact hinner
    · exact List.nil_sublist _

/-- Below a folder a walk with laxer filters comes to more. -/
theorem visitsIn_sublist (hwithin : strict.Within lax) :
    (visitsIn strict disk root place names tree).Sublist
      (visitsIn lax disk root place names tree) := by
  induction tree using FileTree.induct generalizing names with
  | file content => rw [visitsIn_file, visitsIn_file]
  | link target => rw [visitsIn_link, visitsIn_link]
  | folder listable entries ih =>
    have hsame : loadAt lax.ignoreFileNames disk root names =
        loadAt strict.ignoreFileNames disk root names := by
      rw [hwithin.ignoreFileNames]
    cases hload : loadAt strict.ignoreFileNames disk root names with
    | error e => rw [visitsIn_of_error hload, visitsIn_of_error (hsame.trans hload)]
    | ok ps =>
      cases hrefusal : refusal (root.below names) listable with
      | some cause =>
        rw [visitsIn_of_refusal hload hrefusal, visitsIn_of_refusal (hsame.trans hload) hrefusal]
      | none =>
        rw [visitsIn_of_listed hload hrefusal, visitsIn_of_listed (hsame.trans hload) hrefusal]
        refine List.Sublist.flatMap_right _ fun e he => ?_
        exact visitsAt_sublist hwithin (ih e (mem_inOrder.1 he))

/-- **What a walk comes to** with stricter filters it comes to with laxer ones, in the same
order. -/
theorem visits_sublist (hwithin : strict.Within lax) :
    (visits strict disk).Sublist (visits lax disk) := by
  unfold visits
  rw [hwithin.paths]
  refine List.Sublist.flatMap_right _ fun raw _ => ?_
  cases hspot : disk.locate (.ofText raw) with
  | error e => rw [visitsOf_of_error hspot, visitsOf_of_error hspot]
  | ok spot =>
    obtain ⟨place, there⟩ := spot
    cases there with
    | folder listable entries =>
      rw [visitsOf_of_folder hspot, visitsOf_of_folder hspot]
      exact visitsIn_sublist hwithin
    | file content =>
      rw [visitsOf_of_other hspot (by simp), visitsOf_of_other hspot (by simp)]
    | link target =>
      rw [visitsOf_of_other hspot (by simp), visitsOf_of_other hspot (by simp)]

/-! ### Events -/

/-- Filters have no say in the scan of a file. -/
theorem scanFile_congr (hwithin : strict.Within lax) : scanFile lax = scanFile strict := by
  funext path content listed
  unfold scanFile scanContent wantsLabel
  rw [hwithin.charset, hwithin.tables, hwithin.kinds, hwithin.labels]

/-- **What a walk reports** with stricter filters it reports with laxer ones, in the same order, if
nothing ends the laxer walk before its time. -/
theorem run_sublist (hwithin : strict.Within lax) (hd : disk.root.Distinct) :
    (Clear lax disk → (run lax disk).abort = none) ∧
      ((run lax disk).abort = none →
        (run strict disk).abort = none ∧
          (run strict disk).events.Sublist (run lax disk).events) := by
  constructor
  · intro hclear
    rw [run_of_visits hd hclear.charset (hclear.halt_not_mem hd)]
  · have hstrict : run strict disk =
        .concat ((visits strict disk).map (Visit.trail (scanFile strict))) := run_eq hd
    have hlax : run lax disk = .concat ((visits lax disk).map (Visit.trail (scanFile strict))) := by
      rw [run_eq hd, scanFile_congr hwithin]
    intro hrun
    rw [hlax] at hrun ⊢
    rw [hstrict]
    exact Trail.concat_sublist ((visits_sublist hwithin).map _) hrun

/-- A folder with a source file that is hidden and one that is not; neither can be read. -/
def hiddenFileDisk : Disk :=
  { root := .folder true [(".h.go".toList, .file none), ("a.go".toList, .file none)] }

theorem locate_hiddenFileDisk :
    hiddenFileDisk.locate (.ofText ['.']) = .ok ⟨[], hiddenFileDisk.root⟩ := by
  have hpath : Path.ofText ['.'] = {} := by decide
  rw [hpath, Disk.locate_of_names rfl (by decide) (by decide), Disk.follow.eq_2]

/-- With hidden files there is more to report, and all that was reported before is. -/
theorem run_sublist_hiddenFileDisk :
    Options.Within { ignoreFileNames := [] } { ignoreFileNames := [], includeHidden := true } ∧
      hiddenFileDisk.root.Distinct ∧
      (run { ignoreFileNames := [], includeHidden := true } hiddenFileDisk).abort = none ∧
      (run { ignoreFileNames := [] } hiddenFileDisk).events.Sublist
        (run { ignoreFileNames := [], includeHidden := true } hiddenFileDisk).events := by
  have hwithin : Options.Within { ignoreFileNames := [] }
      { ignoreFileNames := [], includeHidden := true } :=
    ⟨rfl, rfl, rfl, rfl, rfl, rfl, fun _ h => h, fun _ h => h, fun _ => rfl, fun h => h,
      fun h => h⟩
  have hd : hiddenFileDisk.root.Distinct := by
    refine FileTree.distinct_folder ?_ ?_
    · show ([".h.go".toList, "a.go".toList] : List Text).Nodup
      decide
    · rw [List.forall_mem_cons, List.forall_mem_singleton]
      exact ⟨FileTree.distinct_file none, FileTree.distinct_file none⟩
  have hclear : Clear { ignoreFileNames := [], includeHidden := true } hiddenFileDisk :=
    { charset := clear_loneDisk.charset
      paths := by
        intro raw hraw e h
        rw [List.mem_singleton.1 hraw, locate_hiddenFileDisk] at h
        cases h
      ignoreFiles := by
        intro raw hraw spot hspot names listable entries h name hname
        cases hname }
  obtain ⟨hnone, hsub⟩ := run_sublist hwithin hd
  exact ⟨hwithin, hd, hnone hclear, (hsub (hnone hclear)).2⟩

/-- A hidden folder in which a link with a name that is too long stands in the place of an ignore
file. -/
def hiddenLinkDisk : Disk :=
  { root := .folder true [(".h".toList,
      .folder true [(".gitignore".toList, .link (List.replicate 256 'x'))])] }

/-- The options of a walk of that folder and of a path that leads nowhere. -/
def hiddenLinkOptions (includeHidden : Bool) : Options where
  paths := [['.'], ['b']]
  ignoreFileNames := [".gitignore".toList]
  includeHidden := includeHidden

/-- It cannot be told whether the ignore file in the hidden folder exists. -/
theorem locate_hiddenLinkDisk :
    hiddenLinkDisk.locate { names := [".h".toList, ".gitignore".toList] } =
      .error .nameTooLong := by
  rw [Disk.locate_of_names rfl (by decide) (by decide), Disk.maxLinks,
    Disk.follow_of_some rfl (by decide) rfl (by rintro _ ⟨⟩),
    follow_of_longLink rfl (by decide) rfl]

theorem loadAt_hiddenLinkDisk :
    loadAt [".gitignore".toList] hiddenLinkDisk {} [] = .ok [] ∧
      loadAt [".gitignore".toList] hiddenLinkDisk {} [".h".toList] = .error .nameTooLong := by
  have houter : (Path.below {} []).append (.ofText ".gitignore".toList) =
      { names := [".gitignore".toList] } := by decide
  have hinner : (Path.below {} [".h".toList]).append (.ofText ".gitignore".toList) =
      { names := [".h".toList, ".gitignore".toList] } := by decide
  unfold loadAt
  rw [List.mapM_cons, List.mapM_cons, houter, hinner, Table.readFile_eq, Table.readFile_eq,
    Disk.isFile, Disk.isFile, Disk.holds, Disk.holds, Disk.find, Disk.find, locate_hiddenLinkDisk,
    Disk.locate_of_names rfl (by decide) (by decide), Disk.follow_of_none rfl (by decide) rfl]
  exact ⟨rfl, rfl⟩

/-- Nothing but its being hidden speaks against the folder. -/
theorem folderPasses_hiddenLinkDisk (includeHidden : Bool) :
    FolderPasses (hiddenLinkOptions includeHidden) hiddenLinkDisk {} [".h".toList] ↔
      includeHidden = true := by
  constructor
  · intro h
    exact h.hidden (by decide) (by decide)
  · intro h
    have hnone : patternsAlong [".gitignore".toList] hiddenLinkDisk {} [] = [] := by
      show patternsAt [".gitignore".toList] hiddenLinkDisk {} [] ++ [] = []
      rw [patternsAt, loadAt_hiddenLinkDisk.1]
      rfl
    have hignored : ignoredAt (hiddenLinkOptions includeHidden) hiddenLinkDisk {} [".h".toList]
        true = false := by
      show Table.verdict (patternsAlong [".gitignore".toList] hiddenLinkDisk {} []) _ true = false
      rw [hnone]
      rfl
    exact ⟨rfl, fun hmem => absurd hmem (by decide), fun _ _ => h,
      fun hmem => absurd hmem (by decide), hignored⟩

/-- A walk that goes into hidden folders is ended there. -/
theorem visits_hiddenLinkDisk (includeHidden : Bool) :
    visits (hiddenLinkOptions includeHidden) hiddenLinkDisk =
      (if includeHidden then [.halt (Path.below {} [".h".toList]) .nameTooLong] else []) ++
        [.missing ['b']] := by
  have hpath : Path.ofText ['.'] = {} := by decide
  have hfile : Path.ofText ['b'] = { names := [['b']] } := by decide
  have hspot : hiddenLinkDisk.locate (.ofText ['.']) = .ok ⟨[], hiddenLinkDisk.root⟩ := by
    rw [hpath, Disk.locate_of_names rfl (by decide) (by decide), Disk.follow.eq_2]
  have hmissing : hiddenLinkDisk.locate (.ofText ['b']) = .error .notFound := by
    rw [hfile, Disk.locate_of_names rfl (by decide) (by decide),
      Disk.follow_of_none rfl (by decide) rfl]
  obtain ⟨houter, hinner⟩ := loadAt_hiddenLinkDisk
  have henters : entersFolder (hiddenLinkOptions includeHidden)
      (tableAlong (hiddenLinkOptions includeHidden) hiddenLinkDisk {} [])
      (Path.below {} ([] ++ [".h".toList])) = true ↔ includeHidden = true :=
    entersFolder_iff.trans (folderPasses_hiddenLinkDisk includeHidden)
  rw [visits, hiddenLinkOptions, List.flatMap_cons, List.flatMap_singleton, ← hiddenLinkOptions,
    visitsOf_of_error hmissing, visitsOf_of_folder hspot, hpath, visitsIn_of_listed houter rfl,
    inOrder, List.mergeSort_singleton, List.flatMap_singleton, visitsAt_folder]
  exact congrArg (· ++ _) (if_congr henters (visitsIn_of_error hinner) rfl)

/-- The laxer walk ends in the hidden folder, before it comes to what the stricter one reports. -/
theorem run_hiddenLinkDisk :
    (hiddenLinkOptions false).Within (hiddenLinkOptions true) ∧
      run (hiddenLinkOptions false) hiddenLinkDisk = ⟨[.failure (.missing ['b'])], none⟩ ∧
      run (hiddenLinkOptions true) hiddenLinkDisk = ⟨[], some (.system .nameTooLong)⟩ := by
  have hd : hiddenLinkDisk.root.Distinct := by
    refine FileTree.distinct_folder (by decide) ?_
    rw [List.forall_mem_singleton]
    refine FileTree.distinct_folder (by decide) ?_
    rw [List.forall_mem_singleton]
    exact FileTree.distinct_link _
  refine ⟨?_, ?_, ?_⟩
  · exact ⟨rfl, rfl, rfl, rfl, rfl, rfl, fun _ h => h, fun _ h => h, fun _ => rfl, fun h => h,
      fun h => h⟩
  · rw [run_eq hd, visits_hiddenLinkDisk]
    rfl
  · rw [run_eq hd, visits_hiddenLinkDisk]
    rfl

end SourceNotes.Walk
