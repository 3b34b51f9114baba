/-
Verdicts after any loading of ignore files.

Folders may be loaded in any order, more than once, and elsewhere as well. The verdict on a path is
that of the last pattern that covers it among those of the loaded folders above the path, the
outermost folder first, so that nothing else about the loading can be told from it.

* **`Table.loadEach_ofPlaces`** — what a table holds after some loading;
* **`Table.verdict_iff`** — a verdict in terms of the last pattern that covers a path;
* **`Table.ignores_loadEach`** — the verdict on a path after some loading.
-/
import SourceNotes.Proofs.FileTree.Places
import SourceNotes.Proofs.Ignore.Loaded

namespace SourceNotes.Ignore

section Defs

variable (fileNames : List Text) (disk : Disk) (root : Path)

/-- The lines of an ignore file; none if there is no file to read. -/
def linesOf (file : Path) : List Text :=
  match disk.isFile file, disk.read file with
  | .ok true, .ok content =>
    Text.pieces '\n' (Charset.unifyNewlines (Charset.decodeLenient content))
  | _, _ => []

/-- The patterns of the folder at `names`: file by file in the order of the file names, and line by
line in each file. -/
def patternsIn (names : List Text) : List Pattern :=
  fileNames.flatMap fun name =>
    (linesOf disk ((root.below names).append (.ofText name))).filterMap (Pattern.ofLine · { names })

/-- Whether the folder at `names` can be loaded: the system has to say of all its ignore files if
they exist. -/
def loads (names : List Text) : Bool :=
  fileNames.all fun name => (disk.isFile ((root.below names).append (.ofText name))).isOk

/-- The last pattern that covers a path leaves it out. -/
def Excludes (ps : List Pattern) (path : Path) (isFolder : Bool) : Prop :=
  ∃ before p after, ps = before ++ p :: after ∧ p.covers path isFolder = true ∧
    p.negated = false ∧ ∀ q ∈ after, q.covers path isFolder = false

/-- The table after loading some folders, one after another. A folder that cannot be loaded leaves
the table as it is. -/
def Table.loadEach (folders : List Path) (t : Table) : Table :=
  folders.foldl (fun t folder => (t.load disk folder).toOption.getD t) t

end Defs

variable {fileNames : List Text} {disk : Disk} {root : Path} {names : List Text}
  {places requested others : List (List Text)}

/-! ### One folder -/

theorem loads_iff : loads fileNames disk root names = true ↔ ∀ name ∈ fileNames, ∃ found,
    disk.isFile ((root.below names).append (.ofText name)) = .ok found := by
  unfold loads
  rw [List.all_eq_true]
  refine forall₂_congr fun name _ => ?_
  cases disk.isFile ((root.below names).append (.ofText name)) with
  | error e => simp [Except.isOk, Except.toBool]
  | ok found => simp [Except.isOk, Except.toBool]

theorem readFile_of_isFile {base file : Path} {found : Bool} (h : disk.isFile file = .ok found) :
    Table.readFile disk base file =
      .ok ((linesOf disk file).filterMap (Pattern.ofLine · base)) := by
  rw [Table.readFile_eq, linesOf, h]
  cases found with
  | false => rfl
  | true => cases disk.read file <;> rfl

theorem loadAt_of_loads (h : loads fileNames disk root names = true) :
    loadAt fileNames disk root names = .ok (patternsIn fileNames disk root names) := by
  have hread : (fileNames.mapM fun name => Table.readFile disk { names }
      ((root.below names).append (.ofText name))) = .ok (fileNames.map fun name =>
        (linesOf disk ((root.below names).append (.ofText name))).filterMap
          (Pattern.ofLine · { names })) := by
    rw [loads_iff] at h
    induction fileNames with
    | nil => rfl
    | cons name fileNames ih =>
      obtain ⟨found, hfound⟩ := h name List.mem_cons_self
      rw [List.mapM_cons, readFile_of_isFile hfound,
        ih fun n hn => h n (List.mem_cons_of_mem name hn)]
      rfl
  rw [loadAt, hread, patternsIn, List.flatMap_def]
  rfl

theorem exists_ok_of_mapM {α β ε : Type} {g : α → Except ε β} {l : List α} {ys : List β}
    (h : l.mapM g = .ok ys) {x : α} (hx : x ∈ l) : ∃ y, g x = .ok y := by
  induction l generalizing ys with
  | nil => cases hx
  | cons z l ih =>
    rw [List.mapM_cons] at h
    cases hz : g z with
    | error e => rw [hz] at h; cases h
    | ok y =>
      cases hl : l.mapM g with
      | error e => rw [hz, hl] at h; cases h
      | ok ys =>
        rcases List.mem_cons.1 hx with rfl | hx
        · exact ⟨y, hz⟩
        · exact ih hl hx

theorem loads_of_loadAt {ps : List Pattern} (h : loadAt fileNames disk root names = .ok ps) :
    loads fileNames disk root names = true := by
  rw [loads_iff]
  intro name hname
  unfold loadAt at h
  cases hread : fileNames.mapM fun name =>
      Table.readFile disk { names } ((root.below names).append (.ofText name)) with
  | error e => rw [hread] at h; cases h
  | ok found =>
    obtain ⟨qs, hfile⟩ := exists_ok_of_mapM hread hname
    rw [Table.readFile_eq] at hfile
    cases hfound : disk.isFile ((root.below names).append (.ofText name)) with
    | error e => rw [hfound] at hfile; cases hfile
    | ok found => exact ⟨found, rfl⟩

theorem patternsAt_of_loads (h : loads fileNames disk root names = true) :
    patternsAt fileNames disk root names = patternsIn fileNames disk root names := by
  rw [patternsAt, loadAt_of_loads h]
  rfl

namespace Table

/-! ### Tables -/

/-- Loading a folder again changes nothing. -/
theorem load_ofPlaces_of_mem (h : names ∈ places) :
    (ofPlaces fileNames disk root places).load disk (root.below names) =
      .ok (ofPlaces fileNames disk root places) := by
  have hknown : ((ofPlaces fileNames disk root places).loaded.lookup { names }).isSome = true := by
    rw [Option.isSome_iff_ne_none, ne_eq, List.lookup_eq_none_iff]
    intro hnone
    have hne := hnone _ (List.mem_map_of_mem h)
    rw [bne_self_eq_false] at hne
    cases hne
  rw [load, relative_ofPlaces, hknown]
  rfl

/-- One folder more: it is loaded if that can be done and has not been done. -/
theorem exists_load_ofPlaces (places : List (List Text)) (names : List Text)
    (hnodup : places.Nodup) :
    ∃ after : List (List Text), after.Nodup ∧
      (∀ a, a ∈ after ↔ a ∈ places ∨ a = names ∧ loads fileNames disk root names) ∧
      ((ofPlaces fileNames disk root places).load disk (root.below names)).toOption.getD
        (ofPlaces fileNames disk root places) = ofPlaces fileNames disk root after := by
  by_cases hmem : names ∈ places
  · refine ⟨places, hnodup, ?_, ?_⟩
    · intro a
      constructor
      · exact .inl
      · rintro (ha | ⟨rfl, -⟩)
        · exact ha
        · exact hmem
    · rw [load_ofPlaces_of_mem hmem]
      rfl
  rw [load_ofPlaces hmem]
  cases hload : loadAt fileNames disk root names with
  | error e =>
    refine ⟨places, hnodup, ?_, rfl⟩
    intro a
    constructor
    · exact .inl
    · rintro (ha | ⟨-, hloads⟩)
      · exact ha
      · rw [loadAt_of_loads hloads] at hload
        cases hload
  | ok ps =>
    refine ⟨places ++ [names], ?_, ?_, rfl⟩
    · exact (List.perm_append_singleton names places).nodup_iff.2 (List.nodup_cons.2 ⟨hmem, hnodup⟩)
    · intro a
      rw [List.mem_append, List.mem_singleton, and_iff_left (loads_of_loadAt hload)]

/-- **What a table holds** after some loading: the folders that were asked for and can be loaded,
in an order of no account. -/
theorem loadEach_ofPlaces (requested : List (List Text)) (hnodup : places.Nodup) :
    ∃ after : List (List Text), after.Nodup ∧
      (∀ a, a ∈ after ↔ a ∈ places ∨ a ∈ requested ∧ loads fileNames disk root a = true) ∧
      loadEach disk (requested.map root.below) (ofPlaces fileNames disk root places) =
        ofPlaces fileNames disk root after := by
  induction requested generalizing places with
  | nil => exact ⟨places, hnodup, by simp, rfl⟩
  | cons names requested ih =>
    obtain ⟨between, hbetween, hmem, hload⟩ :=
      @exists_load_ofPlaces fileNames disk root places names hnodup
    obtain ⟨after, hafter, hmem', hrest⟩ := ih hbetween
    refine ⟨after, hafter, ?_, ?_⟩
    · intro a
      rw [hmem' a, hmem a, List.mem_cons, or_assoc]
      constructor
      · rintro (ha | ⟨rfl, hloads⟩ | ⟨ha, hloads⟩)
        · exact .inl ha
        · exact .inr ⟨.inl rfl, hloads⟩
        · exact .inr ⟨.inr ha, hloads⟩
      · rintro (ha | ⟨rfl | ha, hloads⟩)
        · exact .inl ha
        · exact .inr (.inl ⟨rfl, hloads⟩)
        · exact .inr (.inr ⟨ha, hloads⟩)
    · rw [← hrest, ← hload]
      rfl

/-! ### Verdicts -/

theorem verdict_concat (ps : List Pattern) (p : Pattern) (path : Path) (isFolder : Bool) :
    verdict (ps ++ [p]) path isFolder =
      if p.covers path isFolder then !p.negated else verdict ps path isFolder := by
  rw [verdict, List.foldl_append]
  rfl

end Table

variable {ps : List Pattern} {p : Pattern} {path : Path} {isFolder : Bool}

theorem excludes_concat_of_covers (h : p.covers path isFolder = true) :
    Excludes (ps ++ [p]) path isFolder ↔ p.negated = false := by
  constructor
  · rintro ⟨before, q, after, heq, -, hkeeps, hlast⟩
    rcases List.eq_nil_or_concat' after with rfl | ⟨between, r, rfl⟩
    · obtain ⟨-, hq⟩ := List.append_inj' heq rfl
      cases hq
      exact hkeeps
    · -- The pattern at the end covers the path, so none before it is the last that does.
      rw [← List.cons_append, ← List.append_assoc] at heq
      obtain ⟨-, hr⟩ := List.append_inj' heq rfl
      cases hr
      rw [hlast p (List.mem_append_right _ (List.mem_singleton_self p))] at h
      cases h
  · intro hkeeps
    exact ⟨ps, p, [], rfl, h, hkeeps, by simp⟩

theorem excludes_concat_of_not_covers (h : p.covers path isFolder = false) :
    Excludes (ps ++ [p]) path isFolder ↔ Excludes ps path isFolder := by
  constructor
  · rintro ⟨before, q, after, heq, hcovers, hkeeps, hlast⟩
    rcases List.eq_nil_or_concat' after with rfl | ⟨between, r, rfl⟩
    · obtain ⟨-, hq⟩ := List.append_inj' heq rfl
      cases hq
      rw [h] at hcovers
      cases hcovers
    · rw [← List.cons_append, ← List.append_assoc] at heq
      obtain ⟨rfl, -⟩ := List.append_inj' heq rfl
      exact ⟨before, q, between, rfl, hcovers, hkeeps,
        fun s hs => hlast s (List.mem_append_left _ hs)⟩
  · rintro ⟨before, q, after, rfl, hcovers, hkeeps, hlast⟩
    refine ⟨before, q, after ++ [p], by simp, hcovers, hkeeps, ?_⟩
    intro s hs
    rcases List.mem_append.1 hs with hs | hs
    · exact hlast s hs
    · rw [List.mem_singleton.1 hs]
      exact h

namespace Table

/-- **A verdict** is that of the last pattern that covers the path. -/
theorem verdict_iff (ps : List Pattern) (path : Path) (isFolder : Bool) :
    verdict ps path isFolder = true ↔ Excludes ps path isFolder := by
  induction ps using List.reverseRecOn with
  | nil =>
    refine iff_of_false Bool.false_ne_true ?_
    rintro ⟨before, p, after, h, -⟩
    cases (List.append_eq_nil_iff.1 h.symm).2
  | append_singleton ps p ih =>
    rw [verdict_concat]
    cases hcovers : p.covers path isFolder with
    | true =>
      rw [excludes_concat_of_covers hcovers, if_pos rfl, Bool.not_eq_true']
    | false => rw [excludes_concat_of_not_covers hcovers, if_neg Bool.false_ne_true, ih]

/-- **The verdict on a path**, whatever has been loaded in whatever order: that of the last pattern
that covers the path among those of the folders above it that could be loaded, the outermost first.
Other requests that name the same folders above the path come to the same verdict. -/
theorem ignores_loadEach (fileNames : List Text) (disk : Disk) (root : Path)
    (requested : List (List Text)) (names : List Text) (isFolder : Bool) :
    ((loadEach disk (requested.map root.below) { root, fileNames }).ignores (root.below names)
        isFolder = true ↔
      Excludes ((names.inits.filter fun a =>
          a ∈ requested ∧ loads fileNames disk root a = true).flatMap
        (patternsIn fileNames disk root)) { names } isFolder) ∧
    ∀ others : List (List Text), (∀ a, a <+: names → (a ∈ others ↔ a ∈ requested)) →
      (loadEach disk (others.map root.below) { root, fileNames }).ignores (root.below names)
          isFolder =
        (loadEach disk (requested.map root.below) { root, fileNames }).ignores (root.below names)
          isFolder := by
  have hverdict (asked : List (List Text)) :
      (loadEach disk (asked.map root.below) { root, fileNames }).ignores (root.below names)
          isFolder =
        verdict ((names.inits.filter fun a =>
            a ∈ asked ∧ loads fileNames disk root a = true).flatMap
          (patternsIn fileNames disk root)) { names } isFolder := by
    obtain ⟨after, hnodup, hmem, hload⟩ :=
      @loadEach_ofPlaces fileNames disk root [] asked List.nodup_nil
    have hempty : ofPlaces fileNames disk root [] = { root, fileNames } := rfl
    rw [hempty] at hload
    rw [hload, ignores_ofPlaces hnodup]
    have hfolders : (names.inits.filter fun a => a ∈ after) =
        names.inits.filter fun a => a ∈ asked ∧ loads fileNames disk root a := by
      refine List.filter_congr fun a _ => ?_
      rw [decide_eq_decide, hmem a]
      simp
    rw [hfolders]
    refine congrArg (verdict · _ isFolder) (List.flatMap_congr fun a ha => ?_)
    have hkept := (List.mem_filter.1 ha).2
    exact patternsAt_of_loads (of_decide_eq_true hkept).2
  refine ⟨?_, ?_⟩
  · rw [hverdict, verdict_iff]
  · intro others hsame
    rw [hverdict, hverdict]
    have hfolders : (names.inits.filter fun a => a ∈ others ∧ loads fileNames disk root a = true) =
        names.inits.filter fun a => a ∈ requested ∧ loads fileNames disk root a := by
      refine List.filter_congr fun a ha => ?_
      rw [decide_eq_decide, hsame a ((List.mem_inits a names).1 ha)]
    rw [hfolders]

/-- A folder whose ignore file leaves out everything, with a folder in it whose ignore file takes
everything in again. -/
def nestedDisk : Disk :=
  { root := .folder true [(".gitignore".toList, .file (some [0x2A])),
      ("sub".toList, .folder true [(".gitignore".toList, .file (some [0x21, 0x2A]))])] }

theorem isFile_nestedDisk : ∀ names ∈ [[], ["sub".toList]],
    nestedDisk.isFile ((Path.below {} names).append (.ofText ".gitignore".toList)) = .ok true ∧
      nestedDisk.read ((Path.below {} names).append (.ofText ".gitignore".toList)) =
        .ok (if names = [] then [0x2A] else [0x21, 0x2A]) := by
  have houter : (Path.below {} []).append (.ofText ".gitignore".toList) =
      { names := [".gitignore".toList] } := by decide
  have hinner : (Path.below {} ["sub".toList]).append (.ofText ".gitignore".toList) =
      { names := ["sub".toList, ".gitignore".toList] } := by decide
  rw [List.forall_mem_cons, List.forall_mem_singleton, houter, hinner, Disk.isFile, Disk.isFile,
    Disk.read, Disk.read, Disk.holds, Disk.holds, Disk.find, Disk.find,
    Disk.locate_of_names rfl (by decide) (by decide),
    Disk.locate_of_names rfl (by decide) (by decide),
    Disk.follow_of_some rfl (by decide) rfl (by simp), Disk.follow.eq_2,
    Disk.follow_of_some rfl (by decide) rfl (by simp),
    Disk.follow_of_some rfl (by decide) rfl (by simp), Disk.follow.eq_2]
  exact ⟨⟨rfl, rfl⟩, rfl, rfl⟩

theorem patternsIn_nestedDisk :
    patternsIn [".gitignore".toList] nestedDisk {} [] = [{ glob := ['*'], base := {} }] ∧
      patternsIn [".gitignore".toList] nestedDisk {} ["sub".toList] =
        [{ glob := ['*'], base := { names := ["sub".toList] }, negated := true }] := by
  have hstar : Charset.decodeLenient [0x2A] = ['*'] := by
    simp [Charset.decodeLenient, Charset.utf8Step]
  have hnot : Charset.decodeLenient [0x21, 0x2A] = ['!', '*'] := by
    simp [Charset.decodeLenient, Charset.utf8Step]
  have hfiles := isFile_nestedDisk
  rw [List.forall_mem_cons, List.forall_mem_singleton] at hfiles
  obtain ⟨⟨hfile, hread⟩, hfile', hread'⟩ := hfiles
  unfold patternsIn linesOf
  rw [List.flatMap_singleton, List.flatMap_singleton, hfile, hread, hfile', hread']
  constructor
  · dsimp only
    rw [if_pos rfl, hstar]
    rfl
  · dsimp only
    rw [if_neg (by decide), hnot]
    rfl

/-- Asked for in another order, with one folder twice and another one that does not exist, the two
folders come to the same verdict: the file is not left out. -/
theorem ignores_loadEach_nested :
    (∀ a, a <+: ["sub".toList, "a.go".toList] →
      (a ∈ [["sub".toList], ["other".toList], [], ["sub".toList]] ↔ a ∈ [[], ["sub".toList]])) ∧
    (loadEach nestedDisk ([["sub".toList], ["other".toList], [], ["sub".toList]].map
          (Path.below {})) { root := {}, fileNames := [".gitignore".toList] }).ignores
        (Path.below {} ["sub".toList, "a.go".toList]) false = false := by
  have hsame : ∀ a, a <+: ["sub".toList, "a.go".toList] →
      (a ∈ [["sub".toList], ["other".toList], [], ["sub".toList]] ↔ a ∈ [[], ["sub".toList]]) := by
    intro a ha
    rw [← List.mem_inits] at ha
    revert a
    decide
  refine ⟨hsame, ?_⟩
  obtain ⟨hlast, hothers⟩ := ignores_loadEach [".gitignore".toList] nestedDisk {}
    [[], ["sub".toList]] ["sub".toList, "a.go".toList] false
  have hloads : ∀ names ∈ [[], ["sub".toList]],
      loads [".gitignore".toList] nestedDisk {} names = true := by
    intro names hnames
    rw [loads_iff, List.forall_mem_singleton]
    exact ⟨true, (isFile_nestedDisk names hnames).1⟩
  have hway : (["sub".toList, "a.go".toList].inits.filter fun a =>
      a ∈ [[], ["sub".toList]] ∧ loads [".gitignore".toList] nestedDisk {} a = true) =
        [[], ["sub".toList]] := by
    have hinits : ["sub".toList, "a.go".toList].inits =
        [[], ["sub".toList], ["sub".toList, "a.go".toList]] := rfl
    rw [hinits, List.filter_cons_of_pos, List.filter_cons_of_pos, List.filter_cons_of_neg,
      List.filter_nil]
    · simp
    · simpa using hloads ["sub".toList] (by simp)
    · simpa using hloads [] (by simp)
  obtain ⟨houter, hinner⟩ := patternsIn_nestedDisk
  rw [hothers _ hsame, ← Bool.not_eq_true, hlast, ← verdict_iff, hway, List.flatMap_cons,
    List.flatMap_singleton, houter, hinner]
  -- The pattern that comes last covers the file and is negated.
  have hglob : Glob.ofText ['*'] = [.anyRun] := by
    simp [Glob.ofText, Glob.ofCodes, Codes.ofText]
  have hcovers : Pattern.covers
      { glob := ['*'], base := { names := ["sub".toList] }, negated := true }
      { names := ["sub".toList, "a.go".toList] } false = true := by
    show (Glob.ofText ['*']).fits "a.go".toList = true
    rw [hglob]
    decide
  rw [verdict_concat [_], if_pos hcovers]
  exact Bool.false_ne_true

end Table

end SourceNotes.Ignore
