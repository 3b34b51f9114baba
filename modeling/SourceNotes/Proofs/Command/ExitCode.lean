/-
What the exit code of a run tells.

A run that scans is refused before it comes to any file, or it walks. It is refused if the project
file is rejected, if no output format has the name that is asked for, or if there are no kinds of
notes to look for; its exit code is then the one for usage errors. A run that walks tells by its
exit code whether a failure was reported, at whatever depth, and has given one message for each.

* **`Command.Course`** — the ways in which a run can go, and `course_run`, that there are no others;
* **`Command.KindsFrom`** — the kinds that count, by where they come from, and `kindsFrom_nil_iff`,
  that only arguments can leave none;
* **`Command.Refused`** — the reasons for which a run is refused;
* **`Command.run_of_refused`** — a refused run depends on nothing but its project file;
* **`Command.exitCode_run`** — what the exit code of a run tells.
-/
import Mathlib.Data.List.Forall2
import SourceNotes.Proofs.Command.Output
import SourceNotes.Proofs.Command.ProjectFile
import SourceNotes.Proofs.Walk.Filters

namespace SourceNotes

/-! ### Formats -/

/-- The names of output formats. -/
def Format.names : List Text := ["", "default", "github", "json"].map String.toList

theorem Format.ofName?_eq_none_iff {name : Text} : ofName? name = none ↔ name ∉ names := by
  have hnames : name ∈ names ↔
      (name = [] ∨ name = "default".toList) ∨ name = "github".toList ∨ name = "json".toList := by
    simp [names, or_assoc]
  rw [hnames, ofName?]
  split_ifs with hplain hgithub hjson
  · exact iff_of_false not_false fun h => h (.inl hplain)
  · exact iff_of_false not_false fun h => h (.inr (.inl hgithub))
  · exact iff_of_false not_false fun h => h (.inr (.inr hjson))
  · exact iff_of_true rfl (not_or.2 ⟨hplain, not_or.2 ⟨hgithub, hjson⟩⟩)

/-! ### Failures on a trail -/

namespace Walk.Trail

variable {t : Trail} {trails : List Trail}

/-- The failures on a trail, in their order. -/
def failures (t : Trail) : List WalkError :=
  t.events.filterMap fun
    | .failure e => some e
    | .note .. => none

theorem failed_iff_failures : t.failed = true ↔ t.failures ≠ [] := by
  rw [failed_iff, failures, ne_eq, List.filterMap_eq_nil_iff]
  constructor
  · rintro ⟨e, hmem⟩ hnone
    cases hnone _ hmem
  · intro hsome
    by_contra hno
    refine hsome fun event hmem => ?_
    cases event with
    | note => rfl
    | failure e => exact absurd ⟨e, hmem⟩ hno

/-- The failures of trails that nothing ends are those of each, one after another. -/
theorem failures_concat (h : (concat trails).abort = none) :
    (concat trails).failures = trails.flatMap failures := by
  rw [failures, events_concat h, List.filterMap_flatMap]
  rfl

end Walk.Trail

namespace Command

variable {s : Settings} {arguments : List Text} {a : Arguments} {p : Project} {disk disk' : Disk}
  {format : Format} {t : Walk.Trail} {kinds : List Codes} {code : Nat}

/-! ### Outcomes of walks -/

/-- A walk gives one message for each failure and none for a note. -/
theorem told_ofTrail (format : Format) (t : Walk.Trail) :
    ∃ told : List Text, (Outcome.ofTrail format t).messages = told.flatten ∧
      List.Forall₂ (fun e text => text = message e.message ∧ "todoscan: ".toList <+: text)
        t.failures told := by
  refine ⟨t.failures.map fun e => message e.message, ?_, ?_⟩
  · show t.events.flatMap reported = _
    unfold Walk.Trail.failures
    induction t.events with
    | nil => rfl
    | cons event events ih =>
      rw [List.flatMap_cons, ih]
      cases event with
      | note path note => rfl
      | failure e => rfl
  · rw [List.forall₂_map_right_iff, List.forall₂_same]
    exact fun e _ => ⟨rfl, begins_message e.message⟩

theorem ending_ofTrail (h : (Outcome.ofTrail format t).ending = .ok code) :
    t.abort = none ∧ code ≠ 1 ∧ (code = 2 ↔ t.failures ≠ []) ∧ (code = 0 ↔ t.failures = []) := by
  unfold Outcome.ofTrail at h
  cases habort : t.abort with
  | some abort =>
    rw [habort] at h
    cases h
  | none =>
    rw [habort] at h
    obtain rfl : (if t.failed then failureCode else successCode) = code := Except.ok.inj h
    by_cases hfailed : t.failed = true
    · have hsome := Walk.Trail.failed_iff_failures.1 hfailed
      rw [if_pos hfailed]
      exact ⟨rfl, by decide, iff_of_true rfl hsome, iff_of_false (by decide) hsome⟩
    · have hnone := not_not.1 (mt Walk.Trail.failed_iff_failures.2 hfailed)
      rw [if_neg hfailed]
      exact ⟨rfl, by decide, iff_of_false (by decide) (not_not_intro hnone), iff_of_true rfl hnone⟩

/-! ### Kinds -/

/-- The kinds that a run looks for are those of the arguments if they speak of kinds, also if they
name none; else those of the project if it names some, else those of the settings if they do, and
else the usual ones. -/
inductive KindsFrom (a : Arguments) (p : Project) (s : Settings) : List Codes → Prop
  | arguments {given : Text} (ha : a.kinds = some given) :
    KindsFrom a p s ((Text.commaList given).map Codes.ofText)
  | project (ha : a.kinds = none) (hp : p.kinds ≠ []) : KindsFrom a p s p.kinds
  | settings (ha : a.kinds = none) (hp : p.kinds = []) (hs : s.kindList ≠ []) :
    KindsFrom a p s (s.kindList.map Codes.ofText)
  | usual (ha : a.kinds = none) (hp : p.kinds = []) (hs : s.kindList = []) :
    KindsFrom a p s (Note.defaultKinds.map Codes.ofText)

theorem kindsFrom_iff : KindsFrom a p s kinds ↔ wantedKinds a p s = kinds := by
  constructor
  · intro h
    unfold wantedKinds
    cases h with
    | arguments ha => rw [ha]
    | project ha hp => rw [ha]; exact if_pos hp
    | settings ha hp hs => simp [ha, hp, hs]
    | usual ha hp hs => simp [ha, hp, hs]
  · rintro rfl
    unfold wantedKinds
    cases ha : a.kinds with
    | some given => exact .arguments ha
    | none =>
      by_cases hp : p.kinds = []
      · by_cases hs : s.kindList = []
        · simpa [hp, hs] using KindsFrom.usual (s := s) ha hp hs
        · simpa [hp, hs] using KindsFrom.settings ha hp hs
      · simpa [hp] using KindsFrom.project (s := s) ha hp

/-- Only arguments can leave no kinds, by naming none. -/
theorem kindsFrom_nil_iff :
    KindsFrom a p s [] ↔ ∃ given, a.kinds = some given ∧ Text.commaList given = [] := by
  constructor
  · intro h
    generalize hkinds : ([] : List Codes) = kinds at h
    cases h with
    | arguments ha => exact ⟨_, ha, List.map_eq_nil_iff.1 hkinds.symm⟩
    | project ha hp => exact absurd hkinds.symm hp
    | settings ha hp hs => exact absurd (List.map_eq_nil_iff.1 hkinds.symm) hs
    | usual ha hp hs => cases hkinds
  · rintro ⟨given, ha, hnone⟩
    have h := KindsFrom.arguments (p := p) (s := s) ha
    rwa [hnone] at h

/-! ### The ways of a run -/

/-- Why a run is refused before it comes to any file. -/
inductive Refused (a : Arguments) (s : Settings) (disk : Disk) : Prop
  | project {r : Project.Rejection}
      (h : Project.load disk (workingPath disk) = .error (.rejected r))
  | format (h : formatName a s ∉ Format.names)
  | kinds {p : Project} (hload : Project.load disk (workingPath disk) = .ok p)
      (h : KindsFrom a p s [])

/-- The ways in which a run that scans can go, each with its outcome. -/
inductive Course (a : Arguments) (s : Settings) (disk : Disk) : Outcome → Prop
  /-- The project file ends the run without an exit code. -/
  | aborted {e : Project.Error} (hload : Project.load disk (workingPath disk) = .error e)
      (hother : ∀ r, e ≠ .rejected r) : Course a s disk { ending := .error (.project e) }
  | refused {text : String} (h : Refused a s disk) : Course a s disk (refusal text)
  | walked {p : Project} {format : Format}
      (hload : Project.load disk (workingPath disk) = .ok p)
      (hformat : Format.ofName? (formatName a s) = some format) (hkinds : wantedKinds a p s ≠ []) :
    Course a s disk (.ofTrail format (Walk.run (walkOptions a p s) disk))

theorem course_run (hrequest : Request.ofArguments arguments = .ok (.scan a)) :
    Course a s disk (run s arguments disk) := by
  cases hload : Project.load disk (workingPath disk) with
  | error e =>
    by_cases hrejected : ∃ r, e = .rejected r
    · obtain ⟨r, rfl⟩ := hrejected
      rw [run_of_rejected hrequest hload]
      exact .refused (.project hload)
    · rw [not_exists] at hrejected
      rw [run_of_error hrequest hload hrejected]
      exact .aborted hload hrejected
  | ok p =>
    unfold run scan scanProject
    simp only [hrequest, hload]
    cases hformat : Format.ofName? (formatName a s) with
    | none => exact .refused (.format (Format.ofName?_eq_none_iff.1 hformat))
    | some format =>
      by_cases hkinds : wantedKinds a p s = []
      · simp only [if_pos hkinds]
        exact .refused (.kinds hload (kindsFrom_iff.2 hkinds))
      · simp only [if_neg hkinds]
        exact .walked hload hformat hkinds

theorem not_refused (hload : Project.load disk (workingPath disk) = .ok p)
    (hformat : Format.ofName? (formatName a s) = some format) (hkinds : wantedKinds a p s ≠ []) :
    ¬ Refused a s disk := by
  intro hrefused
  cases hrefused with
  | project h => cases hload.symm.trans h
  | format h => cases hformat.symm.trans (Format.ofName?_eq_none_iff.2 h)
  | kinds hload' h =>
    cases hload.symm.trans hload'
    exact hkinds (kindsFrom_iff.1 h)

/-- A refused run depends on nothing but its project file: it has come to no other file. -/
theorem run_of_refused (hrequest : Request.ofArguments arguments = .ok (.scan a))
    (hrefused : Refused a s disk)
    (hsame : Project.load disk' (workingPath disk') = Project.load disk (workingPath disk)) :
    run s arguments disk' = run s arguments disk := by
  unfold run scan
  simp only [hrequest, hsame]
  cases hload : Project.load disk (workingPath disk) with
  | error e => cases e <;> rfl
  | ok p =>
    show scanProject a p s disk' = scanProject a p s disk
    unfold scanProject
    cases hformat : Format.ofName? (formatName a s) with
    | none => rfl
    | some format =>
      by_cases hkinds : wantedKinds a p s = []
      · simp only [if_pos hkinds]
      · exact absurd hrefused (not_refused hload hformat hkinds)

/-- **The exit code of a run** that scans tells how it went. It is 1 if the run was refused, which
then has printed nothing but a message and has come to no file but its project file. Else the run
has walked, and the code is 2 if there was a failure and 0 if there was none. The failures are those
of all its visits, and for each of them one message has been given. -/
theorem exitCode_run (hrequest : Request.ofArguments arguments = .ok (.scan a))
    (hcode : (run s arguments disk).ending = .ok code) :
    (code = 1 ↔ Refused a s disk) ∧
    (Refused a s disk → (run s arguments disk).output = [] ∧
      "todoscan: ".toList <+: (run s arguments disk).messages ∧
      ∀ disk', Project.load disk' (workingPath disk') = Project.load disk (workingPath disk) →
        run s arguments disk' = run s arguments disk) ∧
    (¬ Refused a s disk → ∃ p, Project.load disk (workingPath disk) = .ok p ∧
      (code = 2 ↔ (Walk.run (walkOptions a p s) disk).failures ≠ []) ∧
      (code = 0 ↔ (Walk.run (walkOptions a p s) disk).failures = []) ∧
      (∃ told : List Text, (run s arguments disk).messages = told.flatten ∧
        List.Forall₂ (fun e text => text = message e.message ∧ "todoscan: ".toList <+: text)
          (Walk.run (walkOptions a p s) disk).failures told) ∧
      (disk.root.Distinct → (Walk.run (walkOptions a p s) disk).failures =
        (Walk.visits (walkOptions a p s) disk).flatMap fun v =>
          (v.trail (Walk.scanFile (walkOptions a p s))).failures)) := by
  have hsame (hrefused : Refused a s disk) : ∀ disk',
      Project.load disk' (workingPath disk') = Project.load disk (workingPath disk) →
        run s arguments disk' = run s arguments disk := by
    intro disk' hload
    exact run_of_refused hrequest hrefused hload
  have hcourse : Course a s disk (run s arguments disk) := course_run hrequest
  generalize run s arguments disk = o at hcode hcourse hsame ⊢
  cases hcourse with
  | aborted => cases hcode
  | @refused text hrefused =>
    cases hcode
    exact ⟨iff_of_true rfl hrefused, fun _ => ⟨rfl, begins_message text, hsame hrefused⟩,
      absurd hrefused⟩
  | @walked p format hload hformat hkinds =>
    have hwalked : ¬ Refused a s disk := not_refused hload hformat hkinds
    obtain ⟨habort, hone, htwo, hzero⟩ := ending_ofTrail hcode
    refine ⟨iff_of_false hone hwalked, fun hrefused => absurd hrefused hwalked,
      fun _ => ⟨p, hload, htwo, hzero, told_ofTrail format _, fun hd => ?_⟩⟩
    rw [Walk.run_eq hd] at habort ⊢
    rw [Walk.Trail.failures_concat habort, List.flatMap_map]

/-! ### Runs on a folder with a note -/

/-- The command line of a run that names no kinds. -/
def noKindsCommand : List Text := ["--todo-types", " , "].map String.toList

/-- The command line of a run on a path that leads nowhere and on the file with the note. -/
def missingCommand : List Text := ["--todo-types", "TODO", "b.c", "a\tb.c"].map String.toList

/-- What it says. -/
def missingArguments : Arguments :=
  { paths := ["b.c".toList, "a\tb.c".toList], kinds := some "TODO".toList }

theorem walk_missing : Walk.run (walkOptions missingArguments {} {}) tabDisk =
    { events := [.failure (.missing "b.c".toList),
        .note { names := ["a\tb.c".toList] } tabNote] } := by
  have hmissing : tabDisk.locate (.ofText "b.c".toList) = .error .notFound := by
    have hpath : Path.ofText "b.c".toList = { names := ["b.c".toList] } := by decide
    rw [hpath, Disk.locate_of_names rfl (by decide) (by decide),
      Disk.follow_of_none rfl (by decide) (by decide)]
  have hvisits : Walk.visits (walkOptions missingArguments {} {}) tabDisk =
      [.missing "b.c".toList, tabVisit] := by
    show ["b.c".toList, "a\tb.c".toList].flatMap (Walk.visitsOf _ tabDisk) = _
    rw [List.flatMap_cons, List.flatMap_singleton, Walk.visitsOf_of_error hmissing,
      visitsOf_tabDisk]
    rfl
  have hscan : Walk.scanFile (walkOptions missingArguments {} {}) =
      Walk.scanFile (walkOptions tabArguments {} {}) := rfl
  rw [Walk.run_eq distinct_tabDisk, hvisits, hscan, List.map_cons, List.map_singleton,
    trail_tabVisit]
  rfl

/-- A run that names no kinds is refused. A path that leads nowhere is told of, and decides the code
also where a note has been found behind it. -/
theorem exitCode_run_tabDisk :
    (Request.ofArguments noKindsCommand = .ok (.scan { kinds := some " , ".toList }) ∧
      (run {} noKindsCommand tabDisk).ending = .ok 1 ∧
      Refused { kinds := some " , ".toList } {} tabDisk ∧
      (run {} noKindsCommand tabDisk).output = []) ∧
    Request.ofArguments missingCommand = .ok (.scan missingArguments) ∧
      (run {} missingCommand tabDisk).ending = .ok 2 ∧
      ¬ Refused missingArguments {} tabDisk ∧
      (Walk.run (walkOptions missingArguments {} {}) tabDisk).failures =
        [.missing "b.c".toList] ∧
      (run {} missingCommand tabDisk).messages =
        "todoscan: b.c: no such file or directory\n".toList := by
  constructor
  · have hrequest : Request.ofArguments noKindsCommand =
        .ok (.scan { kinds := some " , ".toList }) := by decide
    have hcode : (run {} noKindsCommand tabDisk).ending = .ok 1 := by
      unfold run scan
      simp only [hrequest, load_tabDisk]
      rfl
    obtain ⟨hone, hrefused, -⟩ := exitCode_run hrequest hcode
    exact ⟨hrequest, hcode, hone.1 rfl, (hrefused (hone.1 rfl)).1⟩
  · have hrequest : Request.ofArguments missingCommand = .ok (.scan missingArguments) := by decide
    have hrun : run {} missingCommand tabDisk =
        .ofTrail .plain (Walk.run (walkOptions missingArguments {} {}) tabDisk) := by
      unfold run scan
      simp only [hrequest, load_tabDisk]
      rfl
    have hcode : (run {} missingCommand tabDisk).ending = .ok 2 := by
      rw [hrun, walk_missing]
      rfl
    obtain ⟨hone, -, hwalked⟩ := exitCode_run hrequest hcode
    have hnot : ¬ Refused missingArguments {} tabDisk := fun hrefused => by
      cases hone.2 hrefused
    obtain ⟨p, hload, -, -, ⟨told, htold, hall⟩, -⟩ := hwalked hnot
    obtain rfl : p = {} := Except.ok.inj (hload.symm.trans load_tabDisk)
    have hfailures : (Walk.run (walkOptions missingArguments {} {}) tabDisk).failures =
        [.missing "b.c".toList] := by
      rw [walk_missing]
      rfl
    refine ⟨hrequest, hcode, hnot, hfailures, ?_⟩
    rw [hfailures] at hall
    cases hall with
    | cons htext hnone =>
      cases hnone
      rw [htold, htext.1]
      decide

end Command

end SourceNotes
