/-
Ignore files on the way to a path.

A walk goes on loading ignore files into one table, in the order in which it enters folders. Still
the verdict on a path depends on the folders above it alone: a pattern covers nothing outside its
own folder, so it makes no difference what has been loaded elsewhere.

* **`Table.load_ofPlaces`** — loading one folder more;
* **`Table.ignores_ofPlaces`** — the verdict on a path, by the folders above it that have been
  loaded.
-/
import Mathlib.Data.List.Infix
import SourceNotes.Ignore.Table

namespace SourceNotes

/-- The path at `names` below a folder. -/
def Path.below (root : Path) (names : List Text) : Path :=
  { root with names := root.names ++ names }

@[simp]
theorem Path.below_nil (root : Path) : root.below [] = root := by
  rw [below, List.append_nil]

theorem Path.append_name (root : Path) (names : List Text) (name : Text) :
    (root.below names).append { names := [name] } = root.below (names ++ [name]) := by
  simp [append, isAbsolute, below]

namespace Ignore

open List (inits)

variable (fileNames : List Text) (disk : Disk) (root : Path)

/-- What the ignore files of the folder at `names` hold, or why the system does not say. -/
def loadAt (names : List Text) : Except SystemError (List Pattern) := do
  let found ← fileNames.mapM fun name =>
    Table.readFile disk { names } ((root.below names).append (.ofText name))
  return found.flatten

/-- The patterns in the ignore files of the folder at `names`. -/
def patternsAt (names : List Text) : List Pattern :=
  (loadAt fileNames disk root names).toOption.getD []

/-- The patterns of all folders on the way to `names`, those of outer folders first. -/
def patternsAlong (names : List Text) : List Pattern :=
  names.inits.flatMap (patternsAt fileNames disk root)

/-- The table of the folders at some places, loaded in this order. -/
def Table.ofPlaces (places : List (List Text)) : Table :=
  { root, fileNames, loaded := places.map fun names =>
      ({ names }, patternsAt fileNames disk root names) }

variable {fileNames disk root} {names rest : List Text} {places : List (List Text)}

/-! ### Patterns and their folders -/

theorem base_of_ofLine {line : Text} {base : Path} {p : Pattern}
    (h : Pattern.ofLine line base = some p) : p.base = base := by
  simp only [Pattern.ofLine, Option.ite_none_left_eq_some, Option.some.injEq] at h
  obtain ⟨-, -, rfl⟩ := h
  rfl

theorem Table.readFile_eq (base file : Path) :
    readFile disk base file = (disk.isFile file).map fun isFile =>
      if isFile then (disk.read file).toOption.elim [] (patternsOf · base) else [] := by
  unfold readFile
  rcases disk.isFile file with e | _ | _
  · rfl
  · rfl
  · cases disk.read file <;> rfl

theorem base_of_mem_readFile {base file : Path} {ps : List Pattern} {p : Pattern}
    (h : Table.readFile disk base file = .ok ps) (hp : p ∈ ps) : p.base = base := by
  rw [Table.readFile_eq] at h
  rcases hfile : disk.isFile file with e | _ | _
  · rw [hfile] at h
    cases h
  · rw [hfile] at h
    cases h
    cases hp
  · rw [hfile] at h
    cases h
    rcases hcontent : (disk.read file).toOption with _ | content
    · rw [hcontent] at hp
      cases hp
    · rw [hcontent] at hp
      obtain ⟨line, -, hline⟩ := List.mem_filterMap.1 hp
      exact base_of_ofLine hline

theorem exists_of_mem_mapM {α β ε : Type} {g : α → Except ε β} {l : List α} {ys : List β}
    (h : l.mapM g = .ok ys) {y : β} (hy : y ∈ ys) : ∃ x ∈ l, g x = .ok y := by
  induction l generalizing ys with
  | nil => cases h; cases hy
  | cons x l ih =>
    rw [List.mapM_cons] at h
    cases hx : g x with
    | error e => rw [hx] at h; cases h
    | ok z =>
      cases hl : l.mapM g with
      | error e => rw [hx, hl] at h; cases h
      | ok zs =>
        rw [hx, hl] at h
        cases h
        rcases List.mem_cons.1 hy with rfl | hy
        · exact ⟨x, List.mem_cons_self, hx⟩
        · obtain ⟨x', hx', hg⟩ := ih hl hy
          exact ⟨x', List.mem_cons_of_mem x hx', hg⟩

/-- The patterns in the ignore files of a folder are about that folder. -/
theorem base_of_mem_patternsAt {p : Pattern} (hp : p ∈ patternsAt fileNames disk root names) :
    p.base = { names } := by
  unfold patternsAt loadAt at hp
  cases hfound : fileNames.mapM fun name =>
      Table.readFile disk { names } ((root.below names).append (.ofText name)) with
  | error e => rw [hfound] at hp; cases hp
  | ok found =>
    rw [hfound] at hp
    obtain ⟨ps, hps, hp⟩ := List.mem_flatten.1 hp
    obtain ⟨name, -, hread⟩ := exists_of_mem_mapM hfound hps
    exact base_of_mem_readFile hread hp

/-- A pattern covers nothing outside its folder. -/
theorem covers_eq_false {p : Pattern} {isFolder : Bool} (hbase : p.base = { names })
    (h : ¬ names <+: rest) : p.covers { names := rest } isFolder = false := by
  have hparts : ¬ p.base.parts = [] := by
    rw [hbase]
    rintro rfl
    exact h (List.nil_prefix)
  have hbelow : p.below? { names := rest } = none := by
    rw [Pattern.below?, if_neg hparts, if_neg]
    rw [hbase, List.isPrefixOf_iff_prefix]
    exact fun hprefix => h hprefix.2
  rw [Pattern.covers, hbelow]
  split <;> rfl

/-! ### Folders on the way -/

theorem pairwise_inits (names : List Text) :
    names.inits.Pairwise fun a b => a.length < b.length := by
  induction names with
  | nil => simp
  | cons name names ih =>
    rw [List.inits_cons, List.pairwise_cons, List.pairwise_map]
    constructor
    · intro a ha
      obtain ⟨b, -, rfl⟩ := List.mem_map.1 ha
      simp
    · exact ih.imp fun h => by simpa using h

theorem nodup_inits (names : List Text) : names.inits.Nodup := by
  refine (pairwise_inits names).imp ?_
  rintro a b hlt rfl
  exact Nat.lt_irrefl _ hlt

/-- Folders on one way that are listed by their depth, each once, are told by which they are. -/
theorem eq_of_prefixes (rest : List Text) {l m : List (List Text)}
    (hl : l.Pairwise fun a b => a.length ≤ b.length) (hm : m.Pairwise fun a b => a.length ≤ b.length)
    (hlnodup : l.Nodup) (hmnodup : m.Nodup) (h : ∀ a, a ∈ l ↔ a ∈ m)
    (honway : ∀ a ∈ l, a <+: rest) : l = m := by
  refine List.Perm.eq_of_pairwise ?_ hl hm ((List.perm_ext_iff_of_nodup hlnodup hmnodup).2 h)
  -- Two folders of one length on one way are the same.
  intro a b ha hb hab hba
  have hbonway := honway b ((h b).2 hb)
  exact (List.prefix_of_prefix_length_le (honway a ha) hbonway hab).eq_of_length (by omega)

/-- Among folders that were loaded in any order, those on the way to a path are found in the order
of the way. -/
theorem filter_mergeSort_eq (hnodup : places.Nodup) (rest : List Text) :
    ((places.mergeSort fun a b => a.length ≤ b.length).filter fun a => a.isPrefixOf rest) =
      rest.inits.filter fun a => a ∈ places := by
  have hsorted : (places.mergeSort fun a b => a.length ≤ b.length).Pairwise
      fun a b => a.length ≤ b.length := by
    have h : (places.mergeSort fun a b => a.length ≤ b.length).Pairwise
        fun a b => decide (a.length ≤ b.length) = true :=
      List.pairwise_mergeSort (fun a b c hab hbc => by simp at hab hbc ⊢; omega)
        (fun a b => by simp; omega) places
    simpa using h
  have hplaces := (List.mergeSort_perm places fun a b => a.length ≤ b.length).nodup_iff.2 hnodup
  refine eq_of_prefixes rest (hsorted.filter _) (((pairwise_inits rest).imp Nat.le_of_lt).filter _)
    (hplaces.filter _) ((nodup_inits rest).filter _) ?_ ?_
  · intro a
    rw [List.mem_filter, List.mem_filter, List.mem_mergeSort, List.isPrefixOf_iff_prefix,
      List.mem_inits, decide_eq_true_iff]
    exact and_comm
  · intro a ha
    exact List.isPrefixOf_iff_prefix.1 (List.mem_filter.1 ha).2

theorem flatMap_filter_of_nil {α β : Type} {p : α → Bool} {g : α → List β} {l : List α}
    (h : ∀ a ∈ l, p a = false → g a = []) : (l.filter p).flatMap g = l.flatMap g := by
  induction l with
  | nil => rfl
  | cons a l ih =>
    have ih := ih fun b hb => h b (List.mem_cons_of_mem a hb)
    cases ha : p a with
    | false =>
      have hnil := h a List.mem_cons_self ha
      rw [List.filter_cons_of_neg (by rw [ha]; exact Bool.false_ne_true), List.flatMap_cons, hnil,
        ih, List.nil_append]
    | true => rw [List.filter_cons_of_pos ha, List.flatMap_cons, List.flatMap_cons, ih]

/-! ### Tables -/

namespace Table

@[simp]
theorem relative_ofPlaces (places : List (List Text)) (names : List Text) :
    (ofPlaces fileNames disk root places).relative (root.below names) = { names } := by
  simp [relative, ofPlaces, Path.relativeTo?, Path.below]

/-- Loading a folder that has not been loaded adds its patterns. -/
theorem load_ofPlaces (h : names ∉ places) :
    (ofPlaces fileNames disk root places).load disk (root.below names) =
      (loadAt fileNames disk root names).map fun _ =>
        ofPlaces fileNames disk root (places ++ [names]) := by
  have hnew : ((ofPlaces fileNames disk root places).loaded.lookup { names }).isSome = false := by
    rw [Option.isSome_eq_false_iff, Option.isNone_iff_eq_none, List.lookup_eq_none_iff]
    intro e he
    obtain ⟨other, hother, rfl⟩ := List.mem_map.1 he
    rw [bne_iff_ne]
    rintro heq
    cases heq
    exact h hother
  unfold load
  rw [relative_ofPlaces]
  dsimp only
  rw [hnew, if_neg Bool.false_ne_true]
  have hnames : (ofPlaces fileNames disk root places).fileNames = fileNames := rfl
  rw [hnames]
  cases hfound : fileNames.mapM fun name =>
      readFile disk { names } ((root.below names).append (.ofText name)) with
  | error e =>
    rw [loadAt, hfound]
    rfl
  | ok found =>
    have hpatterns : patternsAt fileNames disk root names = found.flatten := by
      rw [patternsAt, loadAt, hfound]
      rfl
    rw [loadAt, hfound]
    simp [ofPlaces, hpatterns, bind, Except.bind, pure, Except.pure, Except.map]

/-- Patterns that do not cover a path have no say. -/
theorem verdict_filter (ps : List Pattern) (path : Path) (isFolder : Bool) :
    verdict (ps.filter (·.covers path isFolder)) path isFolder = verdict ps path isFolder := by
  rw [verdict, verdict, List.foldl_filter]
  congr 1
  funext ignored p
  cases p.covers path isFolder <;> rfl

/-- The patterns of a table, folder by folder. -/
theorem patterns_ofPlaces (places : List (List Text)) :
    (ofPlaces fileNames disk root places).patterns =
      (places.mergeSort fun a b => a.length ≤ b.length).flatMap
        (patternsAt fileNames disk root) := by
  unfold patterns ofPlaces
  dsimp only
  rw [← List.map_mergeSort (r := fun a b => decide (a.length ≤ b.length)), List.flatMap_map]
  intro a _ b _
  rfl

/-- **The verdict on a path** is that of the patterns of the folders above it that have been
loaded, from the outermost one on, whatever else has been loaded and in which order. -/
theorem ignores_ofPlaces (hnodup : places.Nodup) (rest : List Text) (isFolder : Bool) :
    (ofPlaces fileNames disk root places).ignores (root.below rest) isFolder =
      verdict ((rest.inits.filter fun a => a ∈ places).flatMap (patternsAt fileNames disk root))
        { names := rest } isFolder := by
  rw [ignores, patterns_ofPlaces, relative_ofPlaces, ← verdict_filter,
    ← verdict_filter ((rest.inits.filter _).flatMap _), List.filter_flatMap, List.filter_flatMap,
    ← filter_mergeSort_eq hnodup]
  symm
  refine congrArg (verdict · _ isFolder) (flatMap_filter_of_nil ?_)
  intro a _ hother
  rw [List.filter_eq_nil_iff]
  intro p hp
  have hnot : ¬ a <+: rest := by
    rw [← List.isPrefixOf_iff_prefix, hother]
    exact Bool.false_ne_true
  rw [covers_eq_false (base_of_mem_patternsAt hp) hnot]
  exact Bool.false_ne_true

/-- Where the folders on the way to a path have been loaded as far as `names`, the verdict is that
of their patterns. -/
theorem ignores_ofPlaces_of_loaded (hnodup : places.Nodup) (hloaded : ∀ a, a <+: names → a ∈ places)
    (honly : ∀ a ∈ places, a <+: rest → a <+: names) (hbelow : names <+: rest) (isFolder : Bool) :
    (ofPlaces fileNames disk root places).ignores (root.below rest) isFolder =
      verdict (patternsAlong fileNames disk root names) { names := rest } isFolder := by
  have hway : (rest.inits.filter fun a => a ∈ places) = names.inits := by
    refine eq_of_prefixes rest (((pairwise_inits rest).imp Nat.le_of_lt).filter _)
      ((pairwise_inits names).imp Nat.le_of_lt) ((nodup_inits rest).filter _) (nodup_inits names)
      ?_ ?_
    · intro a
      rw [List.mem_filter, List.mem_inits, List.mem_inits, decide_eq_true_iff]
      exact ⟨fun ha => honly a ha.2 ha.1, fun ha => ⟨ha.trans hbelow, hloaded a ha⟩⟩
    · intro a ha
      exact (List.mem_inits a rest).1 (List.mem_filter.1 ha).1
  rw [ignores_ofPlaces hnodup, hway, patternsAlong]

end Table

end Ignore

end SourceNotes
