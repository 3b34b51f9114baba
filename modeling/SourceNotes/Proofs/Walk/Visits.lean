/-
What a walk comes to.

A walk reads ignore files as it goes, and what it has read in one folder is still there in the
next. What it comes to can be told without that: `visitsIn` goes down a tree with nothing but the
names that lead to where it is. A walk is then one trail for each visit, in their order.

* **`Walk.visits`** — what a walk comes to;
* **`Walk.folder_makes`** — walking a folder, whatever ignore files have been read elsewhere;
* **`Walk.run_eq`** — a walk is the trails of its visits.
-/
import SourceNotes.Proofs.FileTree.Places
import SourceNotes.Proofs.Ignore.Loaded
import SourceNotes.Walk

namespace SourceNotes.Walk

open Ignore

/-! ### Trails -/

namespace Trail

variable {a b c : Trail} {trails rest : List Trail}

@[simp]
theorem append_empty (a : Trail) : a.append {} = a := by
  obtain ⟨events, _ | abort⟩ := a
  · simp [append]
  · rfl

theorem append_assoc (a b c : Trail) : (a.append b).append c = a.append (b.append c) := by
  obtain ⟨events, _ | abort⟩ := a
  · obtain ⟨events', _ | abort⟩ := b
    · simp [append]
    · rfl
  · rfl

theorem concat_append (trails rest : List Trail) :
    concat (trails ++ rest) = (concat trails).append (concat rest) := by
  induction trails with
  | nil => rfl
  | cons a trails ih =>
    show a.append (concat (trails ++ rest)) = (a.append (concat trails)).append (concat rest)
    rw [ih, append_assoc]

@[simp]
theorem concat_singleton (a : Trail) : concat [a] = a := append_empty a

theorem abort_append : (a.append b).abort = none ↔ a.abort = none ∧ b.abort = none := by
  obtain ⟨events, _ | abort⟩ := a <;> simp [append]

theorem abort_concat : (concat trails).abort = none ↔ ∀ a ∈ trails, a.abort = none := by
  induction trails with
  | nil => simp [concat]
  | cons a trails ih =>
    show (a.append (concat trails)).abort = none ↔ _
    rw [abort_append, ih, List.forall_mem_cons]

theorem failed_iff : a.failed = true ↔ ∃ e, .failure e ∈ a.events := by
  rw [failed, List.any_eq_true]
  constructor
  · rintro ⟨event, hmem, hfailure⟩
    cases event with
    | note => cases hfailure
    | failure e => exact ⟨e, hmem⟩
  · rintro ⟨e, hmem⟩
    exact ⟨_, hmem, rfl⟩

end Trail

/-! ### Visits -/

/-- Something that a walk comes to. -/
inductive Visit where
  /-- Something to scan, which may have been listed. -/
  | scan (spot : Spot) (path : Path) (listed : Bool)
  /-- A folder that the system does not list. -/
  | refuse (path : Path) (cause : SystemError)
  /-- A listed path that leads nowhere. -/
  | missing (raw : Text)
  /-- A path that cannot be looked up. -/
  | halt (path : Path) (cause : SystemError)

/-- The content at a place that a path leads to. -/
def contentFor (path : Path) (spot : Spot) : Except SystemError Octets :=
  if Disk.isTooLong path then .error .nameTooLong else Disk.contentOf spot.there

/-- Why the system does not list a folder, if it does not. -/
def refusal (path : Path) (listable : Bool) : Option SystemError :=
  if Disk.isTooLong path then some .nameTooLong else if listable then none else some .accessDenied

/-- What comes of a visit. -/
def Visit.trail (scan : Scan) : Visit → Trail
  | .scan spot path listed => scan path (contentFor path spot) listed
  | .refuse path cause => .failure (.refused path cause)
  | .missing raw => .failure (.missing raw)
  | .halt _ cause => { abort := some (.system cause) }

section Defs

variable (o : Options) (disk : Disk) (root : Path) (place : List Text)

/-- The ignore files of the folders on the way to `names`. -/
def tableAlong (names : List Text) : Ignore.Table :=
  .ofPlaces o.ignoreFileNames disk root names.inits

/-- What a walk comes to in a tree at `names` below the folder that was listed, which is at `place`
on the disk. -/
def visitsIn (names : List Text) (tree : FileTree) : List Visit :=
  match tree with
  | .folder listable entries =>
    match loadAt o.ignoreFileNames disk root names with
    | .error e => [.halt (root.below names) e]
    | .ok _ =>
      match refusal (root.below names) listable with
      | some cause => [.refuse (root.below names) cause]
      | none =>
        (inOrder entries).attach.flatMap fun ⟨(name, there), _hmem⟩ =>
          let path := root.below (names ++ [name])
          match there with
          | .link _ => []
          | .folder listable inner =>
            if entersFolder o (tableAlong o disk root names) path then
              visitsIn (names ++ [name]) (.folder listable inner)
            else []
          | .file content =>
            if takesFile o (tableAlong o disk root names) path then
              [.scan ⟨place ++ (names ++ [name]), .file content⟩ path false]
            else []
  | _ => [.refuse (root.below names) .notAFolder]
termination_by sizeOf tree
decreasing_by
  have := List.sizeOf_lt_of_mem (List.mem_mergeSort.1 _hmem)
  simp only [Prod.mk.sizeOf_spec, FileTree.folder.sizeOf_spec] at this ⊢
  omega

/-- What a walk comes to at an entry of the folder at `names`. -/
def visitsAt (names : List Text) (entry : Text × FileTree) : List Visit :=
  let path := root.below (names ++ [entry.1])
  match entry.2 with
  | .link _ => []
  | .folder listable inner =>
    if entersFolder o (tableAlong o disk root names) path then
      visitsIn o disk root place (names ++ [entry.1]) (.folder listable inner)
    else []
  | .file content =>
    if takesFile o (tableAlong o disk root names) path then
      [.scan ⟨place ++ (names ++ [entry.1]), .file content⟩ path false]
    else []

/-- What a walk comes to at a listed path. -/
def visitsOf (raw : Text) : List Visit :=
  let path := Path.ofText raw
  match disk.locate path with
  | .ok spot =>
    match spot.there with
    | .folder .. => visitsIn o disk path spot.place [] spot.there
    | _ => [.scan spot path true]
  | .error e => if Disk.leadsNowhere e then [.missing raw] else [.halt path e]

/-- What a walk comes to. -/
def visits : List Visit := o.paths.flatMap (visitsOf o disk)

/-- Walks an entry of a folder. -/
def entryPart (scan : Scan) (path : Path) (entry : Text × FileTree) : Part := fun ignore =>
  let path := path.append { names := [entry.1] }
  match entry.2 with
  | .link _ => ({}, ignore)
  | .folder listable inner =>
    if entersFolder o ignore path then folder o scan disk path (.folder listable inner) ignore
    else ({}, ignore)
  | .file content =>
    (if takesFile o ignore path then scan path (contentAt path content) false else {}, ignore)

end Defs

variable {o : Options} {disk : Disk} {root : Path} {scan : Scan} {path : Path}
  {place names : List Text} {listable : Bool} {entries : List (Text × FileTree)}

/-! ### Folders, case by case -/

theorem visitsIn_file (content : Option Octets) :
    visitsIn o disk root place names (.file content) =
      [.refuse (root.below names) .notAFolder] := by
  rw [visitsIn]
  simp

theorem visitsIn_link (target : Text) :
    visitsIn o disk root place names (.link target) =
      [.refuse (root.below names) .notAFolder] := by
  rw [visitsIn]
  simp

theorem visitsAt_file (name : Text) (content : Option Octets) :
    visitsAt o disk root place names (name, .file content) =
      if takesFile o (tableAlong o disk root names) (root.below (names ++ [name])) then
        [.scan ⟨place ++ (names ++ [name]), .file content⟩ (root.below (names ++ [name])) false]
      else [] :=
  rfl

theorem visitsAt_folder (name : Text) (listable : Bool) (inner : List (Text × FileTree)) :
    visitsAt o disk root place names (name, .folder listable inner) =
      if entersFolder o (tableAlong o disk root names) (root.below (names ++ [name])) then
        visitsIn o disk root place (names ++ [name]) (.folder listable inner)
      else [] :=
  rfl

theorem folder_file (content : Option Octets) (ignore : Ignore.Table) :
    folder o scan disk path (.file content) ignore =
      (.failure (.refused path .notAFolder), ignore) := by
  rw [folder]
  simp

theorem folder_link (target : Text) (ignore : Ignore.Table) :
    folder o scan disk path (.link target) ignore =
      (.failure (.refused path .notAFolder), ignore) := by
  rw [folder]
  simp

theorem visitsIn_of_error {e : SystemError}
    (hload : loadAt o.ignoreFileNames disk root names = .error e) :
    visitsIn o disk root place names (.folder listable entries) = [.halt (root.below names) e] := by
  rw [visitsIn]
  simp only [hload]

theorem visitsIn_of_refusal {ps : List Pattern} {cause : SystemError}
    (hload : loadAt o.ignoreFileNames disk root names = .ok ps)
    (hrefusal : refusal (root.below names) listable = some cause) :
    visitsIn o disk root place names (.folder listable entries) =
      [.refuse (root.below names) cause] := by
  rw [visitsIn]
  simp only [hload, hrefusal]

theorem visitsIn_of_listed {ps : List Pattern}
    (hload : loadAt o.ignoreFileNames disk root names = .ok ps)
    (hlisted : refusal (root.below names) listable = none) :
    visitsIn o disk root place names (.folder listable entries) =
      (inOrder entries).flatMap (visitsAt o disk root place names) := by
  rw [visitsIn]
  simp only [hload, hlisted]
  rw [List.flatMap_def, List.flatMap_def, ← List.attach_map_val (l := inOrder entries)]
  congr 1
  refine List.map_congr_left ?_
  rintro ⟨⟨name, there⟩, hmem⟩ -
  cases there <;> rfl

theorem folder_of_error {ignore : Ignore.Table} {e : SystemError}
    (hload : ignore.load disk path = .error e) :
    folder o scan disk path (.folder listable entries) ignore =
      ({ abort := some (.system e) }, ignore) := by
  rw [folder]
  simp only [hload]

theorem folder_of_refusal {ignore loaded : Ignore.Table} {cause : SystemError}
    (hload : ignore.load disk path = .ok loaded) (hrefusal : refusal path listable = some cause) :
    folder o scan disk path (.folder listable entries) ignore =
      (.failure (.refused path cause), loaded) := by
  rw [folder]
  simp only [hload]
  unfold refusal at hrefusal
  split at hrefusal
  · next hlong =>
    cases hrefusal
    rw [if_pos hlong]
  split at hrefusal
  · cases hrefusal
  · next hshort hclosed =>
    cases hrefusal
    rw [if_neg hshort, if_neg hclosed]

theorem folder_of_listed {ignore loaded : Ignore.Table} (hload : ignore.load disk path = .ok loaded)
    (hlisted : refusal path listable = none) :
    folder o scan disk path (.folder listable entries) ignore =
      inTurn ((inOrder entries).map (entryPart o disk scan path)) loaded := by
  rw [folder]
  simp only [hload]
  unfold refusal at hlisted
  split at hlisted
  · cases hlisted
  split at hlisted
  · next hshort hopen =>
    rw [if_neg hshort, if_pos hopen]
    rw [← List.attach_map_val (f := entryPart o disk scan path)]
    congr 1
    refine List.map_congr_left ?_
    rintro ⟨⟨name, there⟩, hmem⟩ -
    cases there <;> rfl
  · cases hlisted

/-! ### Ignore files that have been read -/

theorem ignores_tableAlong (o : Options) (disk : Disk) (root : Path) (names : List Text)
    (name : Text) (isFolder : Bool) :
    (tableAlong o disk root names).ignores (root.below (names ++ [name])) isFolder =
      Table.verdict (patternsAlong o.ignoreFileNames disk root names) { names := names ++ [name] }
        isFolder := by
  rw [tableAlong, Table.ignores_ofPlaces_of_loaded (nodup_inits names)]
  · intro a ha
    exact (List.mem_inits a names).2 ha
  · intro a ha _
    exact (List.mem_inits a names).1 ha
  · exact List.prefix_append names [name]

/-- Any other table in which those folders have been loaded, and nothing at the path or below it,
says the same. -/
theorem ignores_tableAlong_eq {places : List (List Text)} {name : Text} (hnodup : places.Nodup)
    (hloaded : ∀ a, a <+: names → a ∈ places) (hnew : ∀ a ∈ places, ¬ names ++ [name] <+: a)
    (isFolder : Bool) :
    (tableAlong o disk root names).ignores (root.below (names ++ [name])) isFolder =
      (Ignore.Table.ofPlaces o.ignoreFileNames disk root places).ignores
        (root.below (names ++ [name])) isFolder := by
  rw [ignores_tableAlong, Table.ignores_ofPlaces_of_loaded hnodup hloaded]
  · intro a ha hprefix
    rcases List.prefix_concat_iff.1 hprefix with rfl | h
    · exact absurd (List.prefix_refl _) (hnew _ ha)
    · exact h
  · exact List.prefix_append names [name]

/-- Whatever has been loaded elsewhere, a part of a walk at `names` makes these visits, and loads
only what is at `names` or below. -/
def Makes (o : Options) (scan : Scan) (disk : Disk) (root : Path) (names : List Text) (part : Part)
    (visits : List Visit) : Prop :=
  ∀ places : List (List Text), places.Nodup → (∀ a, a <+: names → a ≠ names → a ∈ places) →
    (∀ a ∈ places, ¬ names <+: a) →
    ∃ more, part (.ofPlaces o.ignoreFileNames disk root places) =
        (.concat (visits.map (Visit.trail scan)),
          .ofPlaces o.ignoreFileNames disk root (places ++ more)) ∧
      (places ++ more).Nodup ∧ ∀ a ∈ more, names <+: a

/-- A part of a walk that comes out like this loads nothing. -/
theorem exists_more_nil {came : Trail × Ignore.Table} {visits : List Visit}
    {places : List (List Text)} (hnodup : places.Nodup)
    (hcame : came = (.concat (visits.map (Visit.trail scan)),
      .ofPlaces o.ignoreFileNames disk root places)) :
    ∃ more, came = (.concat (visits.map (Visit.trail scan)),
        .ofPlaces o.ignoreFileNames disk root (places ++ more)) ∧
      (places ++ more).Nodup ∧ ∀ a ∈ more, names <+: a := by
  refine ⟨[], ?_, ?_, ?_⟩
  · rw [List.append_nil]
    exact hcame
  · rw [List.append_nil]
    exact hnodup
  · intro a ha
    cases ha

theorem not_append_prefix {name : Text} : ¬ names ++ [name] <+: names := by
  intro h
  have hlength := h.length_le
  rw [List.length_append, List.length_singleton] at hlength
  omega

theorem makes_entryPart {e : Text × FileTree}
    (hfolder : ∀ listable inner, e.2 = .folder listable inner →
      Makes o scan disk root (names ++ [e.1]) (folder o scan disk (root.below (names ++ [e.1])) e.2)
        (visitsIn o disk root place (names ++ [e.1]) e.2)) :
    Makes o scan disk root (names ++ [e.1]) (entryPart o disk scan (root.below names) e)
      (visitsAt o disk root place names e) := by
  obtain ⟨name, there⟩ := e
  intro places hnodup hloaded hnew
  have hall : ∀ a, a <+: names → a ∈ places := by
    intro a ha
    apply hloaded a (ha.trans (List.prefix_append names [name]))
    rintro rfl
    exact not_append_prefix ha
  have hignores (isFolder : Bool) : (tableAlong o disk root names).ignores
      (root.below (names ++ [name])) isFolder = _ :=
    ignores_tableAlong_eq hnodup hall hnew isFolder
  cases there with
  | link target => exact exists_more_nil hnodup rfl
  | folder listable inner =>
    have henters : entersFolder o (tableAlong o disk root names) (root.below (names ++ [name])) =
        entersFolder o (.ofPlaces o.ignoreFileNames disk root places)
          (root.below (names ++ [name])) := by
      unfold entersFolder
      rw [hignores]
    unfold entryPart
    dsimp only
    rw [visitsAt_folder, Path.append_name, henters]
    split
    · exact hfolder listable inner rfl places hnodup hloaded hnew
    · exact exists_more_nil hnodup rfl
  | file content =>
    have htakes : takesFile o (tableAlong o disk root names) (root.below (names ++ [name])) =
        takesFile o (.ofPlaces o.ignoreFileNames disk root places)
          (root.below (names ++ [name])) := by
      unfold takesFile
      rw [hignores]
    apply exists_more_nil hnodup
    unfold entryPart
    dsimp only
    rw [visitsAt_file, Path.append_name, htakes]
    split
    · exact congrArg (·, _) (Trail.concat_singleton _).symm
    · rfl

/-- Names that differ lead to different places. -/
theorem eq_of_prefix_of_prefix {name name' : Text} {a : List Text} (h : names ++ [name] <+: a)
    (h' : names ++ [name'] <+: a) : name = name' := by
  have hprefix := List.prefix_of_prefix_length_le h h' (by simp)
  have heq := hprefix.eq_of_length (by simp)
  simpa using heq

theorem makes_inTurn {places : List (List Text)} {part : Text × FileTree → Part}
    {visits : Text × FileTree → List Visit} (hnames : (entries.map (·.1)).Nodup)
    (hmakes : ∀ e ∈ entries, Makes o scan disk root (names ++ [e.1]) (part e) (visits e))
    (hnodup : places.Nodup) (hloaded : ∀ a, a <+: names → a ∈ places)
    (hnew : ∀ a ∈ places, ∀ e ∈ entries, ¬ names ++ [e.1] <+: a) :
    ∃ more, inTurn (entries.map part) (.ofPlaces o.ignoreFileNames disk root places) =
        (.concat ((entries.flatMap visits).map (Visit.trail scan)),
          .ofPlaces o.ignoreFileNames disk root (places ++ more)) ∧
      (places ++ more).Nodup ∧ ∀ a ∈ more, ∃ e ∈ entries, names ++ [e.1] <+: a := by
  induction entries generalizing places with
  | nil => exact ⟨[], by simp [inTurn, Trail.concat], by simpa using hnodup, by simp⟩
  | cons e entries ih =>
    rw [List.map_cons, List.nodup_cons] at hnames
    obtain ⟨more, hpart, hnodup', hmore⟩ := hmakes e List.mem_cons_self places hnodup
      (fun a ha hne => hloaded a ((List.prefix_concat_iff.1 ha).resolve_left hne))
      (fun a ha => hnew a ha e List.mem_cons_self)
    obtain ⟨rest, hparts, hnodup'', hrest⟩ := ih hnames.2
      (fun e he => hmakes e (List.mem_cons_of_mem _ he)) hnodup'
      (fun a ha => List.mem_append_left more (hloaded a ha)) (by
        intro a ha e' he' hprefix
        rcases List.mem_append.1 ha with ha | ha
        · exact hnew a ha e' (List.mem_cons_of_mem e he') hprefix
        · -- What the first entry has loaded lies at or below its own name.
          have hname := eq_of_prefix_of_prefix (hmore a ha) hprefix
          exact hnames.1 (hname ▸ List.mem_map_of_mem he'))
    refine ⟨more ++ rest, ?_, ?_, ?_⟩
    · rw [List.map_cons, inTurn, hpart]
      dsimp only
      rw [hparts, List.flatMap_cons, List.map_append, Trail.concat_append, List.append_assoc]
    · rwa [← List.append_assoc]
    · intro a ha
      rcases List.mem_append.1 ha with ha | ha
      · exact ⟨e, List.mem_cons_self, hmore a ha⟩
      · obtain ⟨e', he', hprefix⟩ := hrest a ha
        exact ⟨e', List.mem_cons_of_mem e he', hprefix⟩

theorem nodup_inOrder (h : (entries.map (·.1)).Nodup) : ((inOrder entries).map (·.1)).Nodup :=
  (((List.mergeSort_perm entries _).map (·.1)).nodup_iff).2 h

theorem mem_inOrder {e : Text × FileTree} : e ∈ inOrder entries ↔ e ∈ entries := List.mem_mergeSort

/-- **Walking a folder** makes its visits, whatever has been loaded outside it. -/
theorem folder_makes {tree : FileTree} (hd : tree.Distinct) :
    Makes o scan disk root names (folder o scan disk (root.below names) tree)
      (visitsIn o disk root place names tree) := by
  induction tree using FileTree.induct generalizing names with
  | file content =>
    intro places hnodup hloaded hnew
    apply exists_more_nil hnodup
    rw [folder_file, visitsIn_file]
    exact congrArg (·, _) (Trail.concat_singleton _).symm
  | link target =>
    intro places hnodup hloaded hnew
    apply exists_more_nil hnodup
    rw [folder_link, visitsIn_link]
    exact congrArg (·, _) (Trail.concat_singleton _).symm
  | folder listable entries ih =>
    intro places hnodup hloaded hnew
    have hfresh : names ∉ places := fun hmem => hnew names hmem (List.prefix_refl names)
    have hload : (Table.ofPlaces o.ignoreFileNames disk root places).load disk
        (root.below names) = _ := Table.load_ofPlaces hfresh
    cases hfound : loadAt o.ignoreFileNames disk root names with
    | error e =>
      rw [hfound] at hload
      apply exists_more_nil hnodup
      rw [folder_of_error hload, visitsIn_of_error hfound]
      exact congrArg (·, _) (Trail.concat_singleton _).symm
    | ok ps =>
      rw [hfound] at hload
      have hnodup' : (places ++ [names]).Nodup :=
        (List.perm_append_singleton names places).nodup_iff.2
          (List.nodup_cons.2 ⟨hfresh, hnodup⟩)
      cases hrefusal : refusal (root.below names) listable with
      | some cause =>
        refine ⟨[names], ?_, hnodup', by simp⟩
        rw [folder_of_refusal hload hrefusal, visitsIn_of_refusal hfound hrefusal]
        exact congrArg (·, _) (Trail.concat_singleton _).symm
      | none =>
        have hparts : ∀ e ∈ inOrder entries, Makes o scan disk root (names ++ [e.1])
            (entryPart o disk scan (root.below names) e) (visitsAt o disk root place names e) := by
          intro e he
          apply makes_entryPart
          intro _ _ _
          have hmem := mem_inOrder.1 he
          exact ih e hmem (hd.of_holds (.inside hmem (.here e.2)))
        obtain ⟨more, hrun, hnodup'', hmore⟩ := makes_inTurn
          (nodup_inOrder (hd [] listable entries (.here _))) hparts hnodup'
          (by
            intro a ha
            by_cases hne : a = names
            · rw [hne]
              exact List.mem_append_right _ (List.mem_singleton_self _)
            · exact List.mem_append_left _ (hloaded a ha hne))
          (by
            intro a ha e he hprefix
            rcases List.mem_append.1 ha with ha | ha
            · exact hnew a ha ((List.prefix_append names [e.1]).trans hprefix)
            · rw [List.mem_singleton.1 ha] at hprefix
              exact not_append_prefix hprefix)
        refine ⟨names :: more, ?_, ?_, ?_⟩
        · rw [folder_of_listed hload hrefusal, visitsIn_of_listed hfound hrefusal, hrun,
            List.append_assoc, List.singleton_append]
        · rwa [List.append_assoc, List.singleton_append] at hnodup''
        · intro a ha
          rcases List.mem_cons.1 ha with rfl | ha
          · exact List.prefix_refl a
          · obtain ⟨e, -, hprefix⟩ := hmore a ha
            exact (List.prefix_append names [e.1]).trans hprefix

/-! ### Whole walks -/

variable {raw : Text} {e : SystemError} {there : FileTree}

theorem visitsOf_of_folder (h : disk.locate (.ofText raw) = .ok ⟨place, .folder listable entries⟩) :
    visitsOf o disk raw =
      visitsIn o disk (.ofText raw) place [] (.folder listable entries) := by
  rw [visitsOf, h]

theorem visitsOf_of_other (h : disk.locate (.ofText raw) = .ok ⟨place, there⟩)
    (hthere : ∀ listable entries, there ≠ .folder listable entries) :
    visitsOf o disk raw = [.scan ⟨place, there⟩ (.ofText raw) true] := by
  rw [visitsOf, h]
  cases there with
  | folder listable entries => exact absurd rfl (hthere listable entries)
  | file => rfl
  | link => rfl

theorem visitsOf_of_error (h : disk.locate (.ofText raw) = .error e) :
    visitsOf o disk raw =
      [if Disk.leadsNowhere e then .missing raw else .halt (.ofText raw) e] := by
  rw [visitsOf, h]
  dsimp only
  split <;> rfl

/-- **Walking a listed path** makes its visits. -/
theorem listed_eq (scan : Scan)
    (hd : ∀ spot, disk.locate (.ofText raw) = .ok spot → spot.there.Distinct) :
    listed o scan disk raw = .concat ((visitsOf o disk raw).map (Visit.trail scan)) := by
  unfold listed
  dsimp only
  cases hspot : disk.locate (.ofText raw) with
  | error e =>
    have hfind : disk.find (.ofText raw) = .error e := by
      rw [Disk.find, hspot]
      rfl
    rw [visitsOf_of_error hspot]
    simp only [Disk.isFolder, Disk.isThere, Disk.holds, hfind]
    cases Disk.leadsNowhere e <;> exact (Trail.concat_singleton _).symm
  | ok spot =>
    obtain ⟨place, there⟩ := spot
    have hfind : disk.find (.ofText raw) = .ok there := by
      rw [Disk.find, hspot]
      rfl
    have hread : disk.read (.ofText raw) = contentFor (.ofText raw) ⟨place, there⟩ := by
      rw [contentFor, Disk.isTooLong_of_locate hspot, Disk.read, hfind]
      rfl
    simp only [Disk.isFolder, Disk.isThere, Disk.holds, hfind, hread]
    cases there with
    | folder listable entries =>
      have hmakes : Makes o scan disk (.ofText raw) [] _
          (visitsIn o disk (.ofText raw) place [] (.folder listable entries)) :=
        folder_makes (hd _ hspot)
      obtain ⟨more, hrun, -, -⟩ := hmakes [] List.nodup_nil
        (by
          intro a ha hne
          exact absurd (List.prefix_nil.1 ha) hne)
        (by simp)
      rw [Path.below_nil] at hrun
      rw [visitsOf_of_folder hspot]
      exact congrArg Prod.fst hrun
    | file content =>
      rw [visitsOf_of_other hspot (by simp)]
      exact (Trail.concat_singleton _).symm
    | link target =>
      rw [visitsOf_of_other hspot (by simp)]
      exact (Trail.concat_singleton _).symm

/-- **A walk** is the trails of its visits. -/
theorem run_eq (hd : disk.root.Distinct) :
    run o disk = .concat ((visits o disk).map (Visit.trail (scanFile o))) := by
  have hlisted (raw : Text) : listed o (scanFile o) disk raw =
      .concat ((visitsOf o disk raw).map (Visit.trail (scanFile o))) :=
    listed_eq (scanFile o) fun spot hspot => hd.of_holds (Disk.holds_of_locate hspot)
  unfold run visits
  rw [List.map_congr_left fun raw _ => hlisted raw]
  induction o.paths with
  | nil => rfl
  | cons raw raws ih =>
    rw [List.flatMap_cons, List.map_append, Trail.concat_append, ← ih]
    rfl

end SourceNotes.Walk
