/-
Places in a file tree.

A place is given by the names that lead there from the root, through folders only. A path may come
to one and the same place in many ways, as links are followed; `Disk.locate` tells which place it
is.

* **`FileTree.Holds`** — what a tree holds at a place;
* **`FileTree.Distinct`** — trees in which no folder has two entries of one name;
* **`Disk.holds_of_locate`** — a path leads to a place of the disk;
* **`Disk.locate_mapFiles`** — files with other contents are found at the same places.
-/
import SourceNotes.FileTree

namespace SourceNotes

namespace FileTree

/-- To prove something of all trees, prove it of a folder if it holds of what is in it. -/
@[elab_as_elim]
theorem induct {motive : FileTree → Prop} (file : ∀ content, motive (.file content))
    (folder : ∀ listable entries, (∀ e ∈ entries, motive e.2) → motive (.folder listable entries))
    (link : ∀ target, motive (.link target)) (tree : FileTree) : motive tree :=
  match tree with
  | .file content => file content
  | .folder listable entries =>
    folder listable entries fun e _hmem => induct file folder link e.2
  | .link target => link target
termination_by sizeOf tree
decreasing_by
  have := List.sizeOf_lt_of_mem _hmem
  have : sizeOf e = 1 + sizeOf e.1 + sizeOf e.2 := by
    cases e
    rfl
  simp only [FileTree.folder.sizeOf_spec]
  omega

/-- What a tree holds, and the names that lead there through its folders. -/
inductive Holds : FileTree → List Text → FileTree → Prop
  | here (tree : FileTree) : Holds tree [] tree
  | inside {listable : Bool} {entries : List (Text × FileTree)} {name : Text} {names : List Text}
      {inner tree : FileTree} (hmem : (name, inner) ∈ entries) (hinner : Holds inner names tree) :
      Holds (.folder listable entries) (name :: names) tree

/-- No folder of the tree has two entries of one name. -/
def Distinct (tree : FileTree) : Prop :=
  ∀ names listable entries, tree.Holds names (.folder listable entries) →
    (entries.map (·.1)).Nodup

variable {tree inner there : FileTree} {names rest : List Text} {name : Text}
  {listable : Bool} {entries : List (Text × FileTree)}

theorem Holds.trans (h : tree.Holds names inner) (hinner : inner.Holds rest there) :
    tree.Holds (names ++ rest) there := by
  induction h with
  | here => exact hinner
  | inside hmem _ ih => exact .inside hmem (ih hinner)

theorem Holds.entry (h : tree.Holds names (.folder listable entries))
    (hmem : (name, there) ∈ entries) : tree.Holds (names ++ [name]) there :=
  h.trans (.inside hmem (.here there))

/-- What is above a folder is a folder. -/
theorem Holds.folder_of_prefix {above : List Text} (h : tree.Holds names (.folder listable entries))
    ( hprefix : above <+: names) :
    ∃ listable entries, tree.Holds above (.folder listable entries) := by
  generalize hfolder : FileTree.folder listable entries = inner at h
  induction h generalizing above with
  | here =>
    subst hfolder
    rw [List.prefix_nil.1 hprefix]
    exact ⟨listable, entries, .here _⟩
  | inside hmem _ ih =>
    cases above with
    | nil => exact ⟨_, _, .here _⟩
    | cons name above =>
      obtain ⟨rfl, hrest⟩ := List.cons_prefix_cons.1 hprefix
      obtain ⟨listable', entries', habove⟩ := ih hrest hfolder
      exact ⟨listable', entries', .inside hmem habove⟩

theorem Distinct.of_holds (hd : tree.Distinct) (h : tree.Holds names inner) : inner.Distinct :=
  fun _ _ _ hinner => hd _ _ _ (h.trans hinner)

theorem distinct_file (content : Option Octets) : (file content).Distinct := by
  intro names listable entries h
  cases h

theorem distinct_link (target : Text) : (link target).Distinct := by
  intro names listable entries h
  cases h

theorem distinct_folder (hnames : (entries.map (·.1)).Nodup)
    (hinner : ∀ e ∈ entries, e.2.Distinct) : (folder listable entries).Distinct := by
  intro names listable' entries' h
  cases h with
  | here => exact hnames
  | inside hmem hholds => exact hinner _ hmem _ _ _ hholds

theorem Distinct.eq_of_mem (hd : (folder listable entries).Distinct)
    (h : (name, inner) ∈ entries) (h' : (name, there) ∈ entries) : inner = there := by
  have hnodup : (entries.map (·.1)).Nodup := hd [] listable entries (.here _)
  clear hd
  induction entries with
  | nil => cases h
  | cons e entries ih =>
    rw [List.map_cons, List.nodup_cons] at hnodup
    have hother {t : FileTree} (ht : (name, t) ∈ entries) : name ≠ e.1 := by
      rintro rfl
      exact hnodup.1 (List.mem_map.2 ⟨_, ht, rfl⟩)
    rcases List.mem_cons.1 h with rfl | hmem
    · rcases List.mem_cons.1 h' with heq | hmem'
      · exact (congrArg Prod.snd heq).symm
      · exact absurd rfl (hother hmem')
    · rcases List.mem_cons.1 h' with rfl | hmem'
      · exact absurd rfl (hother hmem)
      · exact ih hmem hmem' hnodup.2

/-- At one place there is one thing. -/
theorem Holds.unique (hd : tree.Distinct) (h : tree.Holds names inner)
    (h' : tree.Holds names there) : inner = there := by
  induction h with
  | here =>
    cases h'
    rfl
  | inside hmem hinner ih =>
    cases h' with
    | inside hmem' hinner' =>
      obtain rfl := hd.eq_of_mem hmem hmem'
      exact ih (hd.of_holds (.inside hmem (.here _))) hinner'

/-- A tree with other contents in its files: `f` is told the place of a file and its content.
The tree itself is at `place`. -/
def mapFiles (f : List Text → Option Octets → Option Octets) (place : List Text)
    (tree : FileTree) : FileTree :=
  match tree with
  | .file content => .file (f place content)
  | .folder listable entries =>
    .folder listable <| entries.attach.map fun ⟨(name, there), _hmem⟩ =>
      (name, mapFiles f (place ++ [name]) there)
  | .link target => .link target
termination_by sizeOf tree
decreasing_by
  have := List.sizeOf_lt_of_mem _hmem
  simp only [Prod.mk.sizeOf_spec, FileTree.folder.sizeOf_spec] at this ⊢
  omega

variable (f : List Text → Option Octets → Option Octets) (place : List Text)

@[simp]
theorem mapFiles_file (content : Option Octets) :
    (file content).mapFiles f place = .file (f place content) := by
  rw [mapFiles]

@[simp]
theorem mapFiles_folder (listable : Bool) (entries : List (Text × FileTree)) :
    (folder listable entries).mapFiles f place =
      .folder listable (entries.map fun e => (e.1, e.2.mapFiles f (place ++ [e.1]))) := by
  rw [mapFiles]
  congr 1
  exact List.attach_map_val (f := fun e => (e.1, e.2.mapFiles f (place ++ [e.1]))) (l := entries)

@[simp]
theorem mapFiles_link (target : Text) : (link target).mapFiles f place = .link target := by
  rw [mapFiles]

theorem lookup_mapFiles (entries : List (Text × FileTree)) (name : Text) :
    (entries.map fun e => (e.1, e.2.mapFiles f (place ++ [e.1]))).lookup name =
      (entries.lookup name).map (mapFiles f (place ++ [name])) := by
  induction entries with
  | nil => rfl
  | cons e entries ih =>
    rw [List.map_cons, List.lookup_cons, List.lookup_cons]
    by_cases h : name = e.1
    · subst h
      simp
    · simp [beq_false_of_ne h, ih]

/-- What a tree with other contents holds, the tree held at the same place. -/
theorem Holds.of_mapFiles {place : List Text} (h : (tree.mapFiles f place).Holds names there) :
    ∃ inner, tree.Holds names inner ∧ there = inner.mapFiles f (place ++ names) := by
  induction names generalizing tree place with
  | nil =>
    generalize hthere : tree.mapFiles f place = mapped at h
    cases h
    exact ⟨tree, .here tree, by rw [← hthere, List.append_nil]⟩
  | cons name names ih =>
    cases tree with
    | file content => rw [mapFiles_file] at h; cases h
    | link target => rw [mapFiles_link] at h; cases h
    | folder listable entries =>
      rw [mapFiles_folder] at h
      cases h with
      | inside hmem hinner =>
        obtain ⟨⟨name, old⟩, he, heq⟩ := List.mem_map.1 hmem
        cases heq
        obtain ⟨inner, hheld, rfl⟩ := ih hinner
        exact ⟨inner, .inside he hheld, by rw [List.append_assoc, List.singleton_append]⟩

theorem Distinct.mapFiles (hd : tree.Distinct) (place : List Text) :
    (tree.mapFiles f place).Distinct := by
  intro names listable entries h
  obtain ⟨inner, hinner, heq⟩ := h.of_mapFiles
  cases inner with
  | file content => rw [mapFiles_file] at heq; cases heq
  | link target => rw [mapFiles_link] at heq; cases heq
  | folder listable' entries' =>
    rw [mapFiles_folder] at heq
    cases heq
    rw [List.map_map]
    exact hd names listable entries' hinner

end FileTree

/-- The same place with other contents in the files. -/
def Spot.mapFiles (f : List Text → Option Octets → Option Octets) (s : Spot) : Spot :=
  ⟨s.place, s.there.mapFiles f s.place⟩

theorem Spot.there_mapFiles_of_folder (f : List Text → Option Octets → Option Octets) {s : Spot}
    {listable : Bool} {entries : List (Text × FileTree)} (h : s.there = .folder listable entries) :
    (s.mapFiles f).there =
      .folder listable (entries.map fun e => (e.1, e.2.mapFiles f (s.place ++ [e.1]))) := by
  rw [Spot.mapFiles, h, FileTree.mapFiles_folder]

namespace Disk

/-- A disk with other contents in its files. -/
def mapFiles (f : List Text → Option Octets → Option Octets) (disk : Disk) : Disk :=
  { disk with root := disk.root.mapFiles f [] }

variable {root : FileTree} {links : Nat} {trail : List Spot} {names : List Text} {s : Spot}

/-! ### Following one name -/

/-- A name that is looked up as it is. -/
def IsPlain (name : Text) : Prop :=
  ¬ (name = [] ∨ name = ['.']) ∧ name ≠ ['.', '.'] ∧ ¬ maxName < octetLength name

instance (name : Text) : Decidable (IsPlain name) := inferInstanceAs (Decidable (_ ∧ _ ∧ _))

variable {here : Spot} {above : List Spot} {name target : Text} {listable : Bool}
  {entries : List (Text × FileTree)} {there : FileTree}

theorem follow_of_none (hhere : here.there = .folder listable entries) (hname : IsPlain name)
    (hlookup : entries.lookup name = none) :
    follow root links (here :: above) (name :: names) = .error .notFound := by
  rw [follow.eq_3]
  simp only [hhere, if_neg hname.1, if_neg hname.2.1, if_neg hname.2.2, hlookup]

theorem follow_of_some (hhere : here.there = .folder listable entries) (hname : IsPlain name)
    (hlookup : entries.lookup name = some there) (hlink : ∀ target, there ≠ .link target) :
    follow root links (here :: above) (name :: names) =
      follow root links (⟨here.place ++ [name], there⟩ :: here :: above) names := by
  rw [follow.eq_3]
  simp only [hhere, if_neg hname.1, if_neg hname.2.1, if_neg hname.2.2, hlookup]

theorem follow_of_link (hhere : here.there = .folder listable entries) (hname : IsPlain name)
    (hlookup : entries.lookup name = some (.link target)) (htarget : target ≠ [])
    (hrelative : target.head? ≠ some '/') :
    follow root (links + 1) (here :: above) (name :: names) =
      follow root links (here :: above) (Text.pieces '/' target ++ names) := by
  rw [follow.eq_3]
  simp only [hhere, if_neg hname.1, if_neg hname.2.1, if_neg hname.2.2, hlookup, if_neg htarget,
    if_neg hrelative]

theorem follow_of_long (hhere : here.there = .folder listable entries)
    (hname : ¬ (name = [] ∨ name = ['.'])) (hdots : name ≠ ['.', '.'])
    (hlong : maxName < octetLength name) :
    follow root links (here :: above) (name :: names) = .error .nameTooLong := by
  rw [follow.eq_3]
  simp only [hhere, if_neg hname, if_neg hdots, if_pos hlong]

/-! ### Places that are found -/

/-- Following names leads to places of the tree. -/
theorem holds_of_follow (htrail : ∀ t ∈ trail, root.Holds t.place t.there)
    (h : follow root links trail names = .ok s) : root.Holds s.place s.there := by
  fun_induction follow root links trail names with
  | case1 => cases h
  | case2 => cases h; exact htrail _ List.mem_cons_self
  | case3 _ _ _ _ _ _ _ _ _ ih => exact ih htrail h
  | case4 links here above names _ entries hfolder hdot ih =>
    refine ih ?_ h
    split
    · intro t ht
      rw [List.mem_singleton.1 ht]
      exact htrail _ List.mem_cons_self
    · exact fun t ht => htrail t (List.mem_cons_of_mem _ ht)
  | case5 => cases h
  | case6 => cases h
  | case7 => cases h
  | case8 => cases h
  | case9 here above name names _ entries hfolder hdot hdots hshort target hlookup links htarget
      start ih =>
    refine ih ?_ h
    unfold start
    split
    · intro t ht
      rw [List.mem_singleton.1 ht]
      exact .here root
    · exact htrail
  | case10 links here above name names _ entries hfolder hdot hdots hshort there hnolink hlookup
      ih =>
    refine ih ?_ h
    intro t ht
    rcases List.mem_cons.1 ht with rfl | ht
    · have hhere := htrail here List.mem_cons_self
      rw [hfolder] at hhere
      obtain ⟨before, behind, rfl, -⟩ := List.lookup_eq_some_iff.1 hlookup
      exact hhere.entry (List.mem_append_right _ List.mem_cons_self)
    · exact htrail t ht
  | case11 => cases h

/-- A name that is followed to the end is in the tree, unless it only leads upwards or nowhere. -/
theorem exists_holds_of_follow (htrail : ∀ t ∈ trail, root.Holds t.place t.there)
    (h : follow root links trail names = .ok s) {name : Text} (hname : name ∈ names) :
    (name = [] ∨ name = ['.'] ∨ name = ['.', '.']) ∨
      ∃ place there, root.Holds place there ∧ name ∈ place := by
  fun_induction follow root links trail names with
  | case1 => cases h
  | case2 => cases hname
  | case3 links here above first names _ entries hfolder hdot ih =>
    rcases List.mem_cons.1 hname with rfl | hname
    · exact .inl (hdot.imp_right .inl)
    · exact ih htrail h hname
  | case4 links here above names _ entries hfolder hdot ih =>
    rcases List.mem_cons.1 hname with rfl | hname
    · exact .inl (.inr (.inr rfl))
    refine ih ?_ h hname
    split
    · intro t ht
      rw [List.mem_singleton.1 ht]
      exact htrail _ List.mem_cons_self
    · exact fun t ht => htrail t (List.mem_cons_of_mem _ ht)
  | case5 => cases h
  | case6 => cases h
  | case7 => cases h
  | case8 => cases h
  | case9 here above first names _ entries hfolder hdot hdots hshort target hlookup links htarget
      start ih =>
    have hhere := htrail here List.mem_cons_self
    rw [hfolder] at hhere
    rcases List.mem_cons.1 hname with rfl | hname
    · obtain ⟨before, behind, rfl, -⟩ := List.lookup_eq_some_iff.1 hlookup
      exact .inr ⟨_, _, hhere.entry (List.mem_append_right _ List.mem_cons_self), by simp⟩
    refine ih ?_ h (List.mem_append_right _ hname)
    unfold start
    split
    · intro t ht
      rw [List.mem_singleton.1 ht]
      exact .here root
    · exact htrail
  | case10 links here above first names _ entries hfolder hdot hdots hshort there hnolink hlookup
      ih =>
    have hhere := htrail here List.mem_cons_self
    rw [hfolder] at hhere
    obtain ⟨before, behind, rfl, -⟩ := List.lookup_eq_some_iff.1 hlookup
    have hthere := hhere.entry (List.mem_append_right before List.mem_cons_self)
    rcases List.mem_cons.1 hname with rfl | hname
    · exact .inr ⟨_, _, hthere, by simp⟩
    refine ih ?_ h hname
    intro t ht
    rcases List.mem_cons.1 ht with rfl | ht
    · exact hthere
    · exact htrail t ht
  | case11 => cases h

variable (f : List Text → Option Octets → Option Octets)

/-- Names lead to the same places when the files have other contents. -/
theorem follow_mapFiles (root : FileTree) (links : Nat) (trail : List Spot) (names : List Text) :
    follow (root.mapFiles f []) links (trail.map (Spot.mapFiles f)) names =
      (follow root links trail names).map (Spot.mapFiles f) := by
  fun_induction follow root links trail names with
  | case1 => rw [List.map_nil, follow.eq_1]; rfl
  | case2 => rw [List.map_cons, follow.eq_2]; rfl
  | case3 links here above name names _ entries hfolder hdot ih =>
    rw [List.map_cons, follow.eq_3]
    simp only [Spot.there_mapFiles_of_folder f hfolder, if_pos hdot]
    exact ih
  | case4 links here above names _ entries hfolder hdot ih =>
    rw [List.map_cons, follow.eq_3]
    simp only [Spot.there_mapFiles_of_folder f hfolder, if_neg hdot, if_true, List.map_eq_nil_iff]
    rw [dite_eq_ite] at ih
    rw [← ih]
    split <;> rfl
  | case5 links here above name names _ entries hfolder hdot hdots hlong =>
    rw [List.map_cons, follow.eq_3]
    simp only [Spot.there_mapFiles_of_folder f hfolder, if_neg hdot, if_neg hdots, if_pos hlong]
    rfl
  | case6 links here above name names _ entries hfolder hdot hdots hshort hlookup =>
    rw [List.map_cons, follow.eq_3]
    simp only [Spot.there_mapFiles_of_folder f hfolder, if_neg hdot, if_neg hdots, if_neg hshort,
      FileTree.lookup_mapFiles, hlookup, Option.map_none]
    rfl
  | case7 here above name names _ entries hfolder hdot hdots hshort target hlookup =>
    rw [List.map_cons, follow.eq_3]
    simp only [Spot.there_mapFiles_of_folder f hfolder, if_neg hdot, if_neg hdots, if_neg hshort,
      FileTree.lookup_mapFiles, hlookup, Option.map_some, FileTree.mapFiles_link]
    rfl
  | case8 here above name names _ entries hfolder hdot hdots hshort links hlookup =>
    rw [List.map_cons, follow.eq_3]
    simp only [Spot.there_mapFiles_of_folder f hfolder, if_neg hdot, if_neg hdots, if_neg hshort,
      FileTree.lookup_mapFiles, hlookup, Option.map_some, FileTree.mapFiles_link]
    rfl
  | case9 here above name names _ entries hfolder hdot hdots hshort target hlookup links htarget
      start ih =>
    rw [List.map_cons, follow.eq_3]
    simp only [Spot.there_mapFiles_of_folder f hfolder, if_neg hdot, if_neg hdots, if_neg hshort,
      FileTree.lookup_mapFiles, hlookup, Option.map_some, FileTree.mapFiles_link, if_neg htarget]
    rw [← ih]
    unfold start
    split <;> rfl
  | case10 links here above name names _ entries hfolder hdot hdots hshort there hnolink hlookup
      ih =>
    rw [List.map_cons, follow.eq_3]
    simp only [Spot.there_mapFiles_of_folder f hfolder, if_neg hdot, if_neg hdots, if_neg hshort,
      FileTree.lookup_mapFiles, hlookup, Option.map_some]
    rw [← ih]
    cases there with
    | link target => exact (hnolink target rfl).elim
    | file content => rw [FileTree.mapFiles_file]; simp [Spot.mapFiles]
    | folder listable inner => rw [FileTree.mapFiles_folder]; simp [Spot.mapFiles]
  | case11 links here above name names hnofolder =>
    rw [List.map_cons, follow.eq_3]
    cases hthere : here.there with
    | folder listable inner => exact (hnofolder listable inner hthere).elim
    | file content => simp only [Spot.mapFiles, hthere, FileTree.mapFiles_file]; rfl
    | link target => simp only [Spot.mapFiles, hthere, FileTree.mapFiles_link]; rfl

variable (disk : Disk) (path : Path)

/-- A path leads to the same place when the files have other contents. -/
theorem locate_mapFiles :
    (disk.mapFiles f).locate path = (disk.locate path).map (Spot.mapFiles f) := by
  unfold locate
  split
  · rfl
  split
  · rfl
  · exact follow_mapFiles f disk.root maxLinks [⟨[], disk.root⟩] _

/-- What is asked about a path, other than the content of a file, has the same answer when the
files have other contents. -/
theorem holds_mapFiles {p : FileTree → Bool}
    (hp : ∀ place tree, p (tree.mapFiles f place) = p tree) :
    (disk.mapFiles f).holds p path = disk.holds p path := by
  unfold holds find
  rw [locate_mapFiles]
  cases disk.locate path with
  | error e => rfl
  | ok s => exact congrArg Except.ok (hp s.place s.there)

theorem isFile_mapFiles : (disk.mapFiles f).isFile path = disk.isFile path := by
  apply holds_mapFiles
  intro place tree
  cases tree <;> simp

theorem contentOf_mapFiles {place : List Text} {tree : FileTree}
    (h : ∀ content, tree = .file content → f place content = content) :
    contentOf (tree.mapFiles f place) = contentOf tree := by
  cases tree with
  | file content => rw [FileTree.mapFiles_file, h content rfl]
  | folder => rw [FileTree.mapFiles_folder]; rfl
  | link => rw [FileTree.mapFiles_link]

/-- A file whose own content stays is read as before. -/
theorem read_mapFiles (h : ∀ s content, disk.locate path = .ok s → s.there = .file content →
    f s.place content = content) : (disk.mapFiles f).read path = disk.read path := by
  unfold read find
  rw [locate_mapFiles]
  cases hs : disk.locate path with
  | error e => rfl
  | ok s => exact contentOf_mapFiles f fun content hthere => h s content hs hthere

/-- Where the working folder is the root, a relative path is followed from there. -/
theorem locate_of_names {disk : Disk} (hworking : disk.workingFolder = [])
    (hnul : '\x00' ∉ Path.toText { names }) (hshort : isTooLong { names } = false) :
    disk.locate { names } = follow disk.root maxLinks [⟨[], disk.root⟩] names := by
  rw [locate, if_neg hnul, hshort, hworking]
  rfl

/-- The path of anything that is found is short enough. -/
theorem isTooLong_of_locate {disk : Disk} {path : Path} (h : disk.locate path = .ok s) :
    isTooLong path = false := by
  unfold locate at h
  split at h
  · cases h
  split at h
  · cases h
  · next hshort => exact Bool.eq_false_iff.2 hshort

/-- A path leads to a place of the disk. -/
theorem holds_of_locate {disk : Disk} {path : Path} (h : disk.locate path = .ok s) :
    disk.root.Holds s.place s.there := by
  unfold locate at h
  split at h
  · cases h
  split at h
  · cases h
  · refine holds_of_follow ?_ h
    intro t ht
    rw [List.mem_singleton.1 ht]
    exact .here disk.root

/-- The names of a path that leads somewhere. -/
theorem exists_holds_of_locate {disk : Disk} {path : Path} (h : disk.locate path = .ok s)
    {name : Text} (hname : name ∈ path.names) :
    (name = [] ∨ name = ['.'] ∨ name = ['.', '.']) ∨
      ∃ place there, disk.root.Holds place there ∧ name ∈ place := by
  unfold locate at h
  split at h
  · cases h
  split at h
  · cases h
  · refine exists_holds_of_follow ?_ h (List.mem_append_right _ hname)
    intro t ht
    rw [List.mem_singleton.1 ht]
    exact .here disk.root

end Disk

end SourceNotes
