/-
What a run tells of its project file.

Whatever a project file holds, either something comes of it or it is rejected, and then the run says
so and ends. There are exceptions: a key that is no text, and the faults that have causes of their
own. These end the run without a word.

* **`Project.Told`** — a project file is used, or is rejected by its path;
* **`Project.Slips`** — the octets of which neither is true;
* **`Project.told_iff`** — these are the only ones;
* **`Command.projectFile_told`** — what a run does in each case.
-/
import SourceNotes.Command.Run
import SourceNotes.Proofs.FileTree.Places
import SourceNotes.Proofs.Report.Lines
import SourceNotes.Proofs.Yaml.Load

namespace SourceNotes

namespace Project

variable {disk : Disk} {path file : Path} {octets : Octets} {r : Rejection}

/-- Where the project file of a path is looked for: in it if it is a folder, and else there. -/
def IsFileOf (disk : Disk) (path file : Path) : Prop :=
  (disk.isFolder path = .ok true ∧ file = path.append { names := [fileName] }) ∨
    (disk.isFolder path = .ok false ∧ file = path)

/-- Whether something comes of a project file, or it is rejected by its path. -/
def Told (disk : Disk) (path file : Path) : Prop :=
  (∃ p, load disk path = .ok p) ∨ ∃ r, load disk path = .error (.rejected r) ∧ r.path = file

/-- Whether octets hold a key that is no text, or cannot be loaded for a cause other than that they
are no YAML. -/
inductive Slips (octets : Octets) : Prop
  | key {c : Yaml.Contents} {entries : List (Yaml.Atom × Yaml.Ref)} {key : Yaml.Atom}
      {value : Yaml.Ref} (hload : Yaml.load octets = .ok c) (hwhole : c.whole = .map entries)
      (hmem : (key, value) ∈ entries) (hkey : ∀ text, key ≠ .text text)
  | fault {f : Yaml.Fault} (hload : Yaml.load octets = .error f) (hcause : Yaml.Slip octets f)

/-- Keys are told apart exactly if all of them are texts. -/
theorem lastOfEach_cases (entries : List (Yaml.Atom × Yaml.Ref)) :
    (∃ last, lastOfEach entries = .ok last ∧ ∀ entry ∈ entries, ∃ text, entry.1 = .text text) ∨
      lastOfEach entries = .error .oddKey ∧ ∃ entry ∈ entries, ∀ text, entry.1 ≠ .text text := by
  induction entries with
  | nil => exact .inl ⟨[], rfl, by simp⟩
  | cons entry entries ih =>
    obtain ⟨key, value⟩ := entry
    rw [lastOfEach]
    -- The other entries are looked at first, so an odd key among them counts before this one.
    obtain ⟨last, hlast, htexts⟩ | ⟨hodd, entry, hmem, hentry⟩ := ih
    · rw [hlast]
      by_cases hkey : ∃ text, key = .text text
      · obtain ⟨text, rfl⟩ := hkey
        exact .inl ⟨_, rfl, List.forall_mem_cons.2 ⟨⟨text, rfl⟩, htexts⟩⟩
      · rw [not_exists] at hkey
        refine .inr ⟨?_, _, List.mem_cons_self, hkey⟩
        cases key with
        | text text => exact absurd rfl (hkey text)
        | _ => rfl
    · rw [hodd]
      exact .inr ⟨rfl, entry, List.mem_cons_of_mem _ hmem, hentry⟩

/-- What the contents of a project file come to: an odd key is the only way out. -/
theorem ofContents_cases (file : Path) (c : Yaml.Contents) :
    ((∃ p, ofContents file c = .ok p) ∨
        ∃ r, ofContents file c = .error (.rejected r) ∧ r.path = file) ∧
          (∀ entries, c.whole = .map entries → ∀ entry ∈ entries, ∃ text, entry.1 = .text text) ∨
      ofContents file c = .error .oddKey ∧ ∃ entries, c.whole = .map entries ∧
        ∃ entry ∈ entries, ∀ text, entry.1 ≠ .text text := by
  unfold ofContents
  split
  · next hwhole =>
    refine .inl ⟨.inl ⟨{}, rfl⟩, fun entries hmap => ?_⟩
    cases hwhole.symm.trans hmap
  · next entries hwhole =>
    obtain ⟨last, hlast, htexts⟩ | ⟨hodd, hentry⟩ := lastOfEach_cases entries
    · rw [hlast]
      refine .inl ⟨?_, fun entries' hmap => ?_⟩
      · by_cases hfaults : (ofEntries c last).2 = 0
        · exact .inl ⟨(ofEntries c last).1, if_pos hfaults⟩
        · exact .inr ⟨.misfits file (ofEntries c last).2, if_neg hfaults, rfl⟩
      · cases hwhole.symm.trans hmap
        exact htexts
    · rw [hodd]
      exact .inr ⟨rfl, entries, hwhole, hentry⟩
  · next hother =>
    exact .inl ⟨.inr ⟨_, rfl, rfl⟩, fun entries hmap => absurd hmap (hother entries)⟩

theorem ofOctets_of_invalid (file : Path) (h : Yaml.load octets = .error .invalid) :
    ofOctets file octets = .error (.rejected (.invalid file)) := by
  unfold ofOctets
  rw [h]

theorem ofOctets_of_fault {f : Yaml.Fault} (file : Path) (h : Yaml.load octets = .error f)
    (hf : f ≠ .invalid) : ofOctets file octets = .error (.noValue f) := by
  unfold ofOctets
  rw [h]
  cases f with
  | invalid => exact absurd rfl hf
  | _ => rfl

theorem ofOctets_of_ok {c : Yaml.Contents} (file : Path) (h : Yaml.load octets = .ok c) :
    ofOctets file octets = ofContents file c := by
  unfold ofOctets
  rw [h]

/-- What the octets of a project file come to. -/
theorem ofOctets_cases (file : Path) (octets : Octets) :
    ((∃ p, ofOctets file octets = .ok p) ∨
        ∃ r, ofOctets file octets = .error (.rejected r) ∧ r.path = file) ∧ ¬ Slips octets ∨
      (∃ e, ofOctets file octets = .error e ∧ ∀ r, e ≠ .rejected r) ∧ Slips octets := by
  cases hload : Yaml.load octets with
  | error f =>
    by_cases hinvalid : f = .invalid
    · subst hinvalid
      refine .inl ⟨.inr ⟨_, ofOctets_of_invalid file hload, rfl⟩, fun hslips => ?_⟩
      cases hslips with
      | key hok => cases hload.symm.trans hok
      | fault herror hcause =>
        cases hload.symm.trans herror
        exact hcause.ne_invalid rfl
    · have hends := Yaml.load_ends octets
      rw [hload] at hends
      exact .inr ⟨⟨_, ofOctets_of_fault file hload hinvalid, fun r h => nomatch h⟩,
        .fault hload (hends.resolve_left hinvalid)⟩
  | ok c =>
    rw [ofOctets_of_ok file hload]
    obtain ⟨htold, htexts⟩ | ⟨hodd, entries, hwhole, ⟨key, value⟩, hmem, hkey⟩ :=
      ofContents_cases file c
    · refine .inl ⟨htold, fun hslips => ?_⟩
      cases hslips with
      | key hok hwhole hmem hkey =>
        cases hload.symm.trans hok
        obtain ⟨text, htext⟩ := htexts _ hwhole _ hmem
        exact hkey text htext
      | fault herror hcause => cases hload.symm.trans herror
    · exact .inr ⟨⟨_, hodd, fun r h => nomatch h⟩, .key hload hwhole hmem hkey⟩

/-- Where the project file is, and that it is there, decides what is loaded. -/
theorem load_of_isFileOf (hfile : IsFileOf disk path file) (hthere : disk.isThere file = .ok true) :
    (∀ cause, disk.read file = .error cause →
        load disk path = .error (.rejected (.unreadable file cause))) ∧
      ∀ octets, disk.read file = .ok octets → load disk path = ofOctets file octets := by
  unfold load
  obtain ⟨hfolder, rfl⟩ | ⟨hfolder, rfl⟩ := hfile
  all_goals
    simp only [hfolder, pure_bind, hthere]
    exact ⟨fun cause hread => by rw [hread]; rfl, fun octets hread => by rw [hread]⟩

theorem isThere_of_read (hread : disk.read file = .ok octets) : disk.isThere file = .ok true := by
  unfold Disk.read at hread
  unfold Disk.isThere Disk.holds
  cases hfind : disk.find file with
  | error e =>
    rw [hfind] at hread
    cases hread
  | ok tree => rfl

/-- A project file that can be read is told exactly if its octets do not slip. -/
theorem told_iff (hfile : IsFileOf disk path file) (hread : disk.read file = .ok octets) :
    Told disk path file ↔ ¬ Slips octets := by
  have hload := (load_of_isFileOf hfile (isThere_of_read hread)).2 octets hread
  unfold Told
  rw [hload]
  obtain ⟨htold, hslips⟩ | ⟨⟨e, herror, hother⟩, hslips⟩ := ofOctets_cases file octets
  · exact iff_of_true htold hslips
  · refine iff_of_false ?_ (not_not_intro hslips)
    rw [herror]
    rintro (⟨p, hp⟩ | ⟨r, hr, -⟩)
    · cases hp
    · cases hr
      exact hother r rfl

end Project

namespace Command

variable {s : Settings} {arguments : List Text} {a : Arguments} {disk : Disk} {path file : Path}
  {r : Project.Rejection}

theorem begins_message (text : String) : "todoscan: ".toList <+: message text := by
  have hline : Screen.line "todoscan: ".toList = "todoscan: ".toList :=
    Screen.line_of_plain (by decide)
  have htext : s!"{name}: {text}".toList = "todoscan: ".toList ++ text.toList := by
    show ("todoscan" ++ ": " ++ text).toList = _
    rw [String.toList_append]
    rfl
  have hprefix := Screen.line_prefix_layout (s := "todoscan: ".toList) (by decide) text.toList
  rw [hline] at hprefix
  rwa [message, htext]

theorem run_of_rejected (hrequest : Request.ofArguments arguments = .ok (.scan a))
    (hload : Project.load disk (workingPath disk) = .error (.rejected r)) :
    run s arguments disk = refusal r.message := by
  unfold run scan
  rw [hrequest, hload]

theorem run_of_error {e : Project.Error} (hrequest : Request.ofArguments arguments = .ok (.scan a))
    (hload : Project.load disk (workingPath disk) = .error e) (hother : ∀ r, e ≠ .rejected r) :
    run s arguments disk = { ending := .error (.project e) } := by
  unfold run scan
  rw [hrequest, hload]
  cases e with
  | rejected r => exact absurd rfl (hother r)
  | _ => rfl

/-- A project file that is found is used or rejected by its path, unless it can be read and its
octets slip. If it is rejected, a run prints nothing but a message and ends with the code for a
usage error; if its octets slip, a run ends without a word. -/
theorem projectFile_told (hfile : Project.IsFileOf disk path file) :
    (∀ cause, disk.isThere file = .ok true → disk.read file = .error cause →
      Project.load disk path = .error (.rejected (.unreadable file cause))) ∧
    (∀ octets, disk.read file = .ok octets →
      (Project.Told disk path file ↔ ¬ Project.Slips octets) ∧
        (path = workingPath disk → Project.Slips octets → ∀ s arguments a,
          Request.ofArguments arguments = .ok (.scan a) →
            ∃ e, run s arguments disk = { ending := .error (.project e) })) ∧
    ∀ r, path = workingPath disk → Project.load disk path = .error (.rejected r) →
      ∀ s arguments a, Request.ofArguments arguments = .ok (.scan a) →
        (run s arguments disk).output = [] ∧ (run s arguments disk).ending = .ok usageCode ∧
          "todoscan: ".toList <+: (run s arguments disk).messages := by
  refine ⟨fun cause hthere hread => (Project.load_of_isFileOf hfile hthere).1 cause hread,
    fun octets hread => ⟨Project.told_iff hfile hread, ?_⟩, ?_⟩
  · rintro rfl hslips s arguments a hrequest
    obtain ⟨-, hnot⟩ | ⟨⟨e, herror, hother⟩, -⟩ := Project.ofOctets_cases file octets
    · exact absurd hslips hnot
    have hload := (Project.load_of_isFileOf hfile (Project.isThere_of_read hread)).2 octets hread
    exact ⟨e, run_of_error hrequest (hload.trans herror) hother⟩
  · rintro r rfl hload s arguments a hrequest
    rw [run_of_rejected hrequest hload]
    exact ⟨rfl, rfl, begins_message r.message⟩

/-! ### A project file that is rejected, and one that slips -/

/-- A folder with a project file. -/
def projectDisk (octets : Octets) : Disk :=
  { root := .folder true [(Project.fileName, .file (some octets))] }

/-- The place of the project file in it. -/
def projectFile : Path := { root := ['/'], names := [Project.fileName] }

theorem isFileOf_projectDisk (octets : Octets) :
    Project.IsFileOf (projectDisk octets) (workingPath (projectDisk octets)) projectFile := by
  have hlocate : (projectDisk octets).locate { root := ['/'] } =
      .ok ⟨[], (projectDisk octets).root⟩ := by
    rw [Disk.locate, if_neg (by decide), if_neg (by decide)]
    exact Disk.follow.eq_2 ..
  refine .inl ⟨?_, rfl⟩
  show (projectDisk octets).isFolder { root := ['/'] } = .ok true
  rw [Disk.isFolder, Disk.holds, Disk.find, hlocate]
  rfl

theorem read_projectDisk (octets : Octets) :
    (projectDisk octets).read projectFile = .ok octets := by
  have hlocate : (projectDisk octets).locate projectFile =
      .ok ⟨[Project.fileName], .file (some octets)⟩ := by
    rw [Disk.locate, if_neg (by decide), if_neg (by decide)]
    show Disk.follow _ _ [⟨[], (projectDisk octets).root⟩] [Project.fileName] = _
    rw [Disk.follow_of_some rfl (by decide) rfl (by rintro _ ⟨⟩)]
    exact Disk.follow.eq_2 ..
  rw [Disk.read, Disk.find, hlocate]
  rfl

/-- A closing bracket that nothing opens. -/
def strayBracket : Octets := [0x5D]

/-- An octet that is never part of a text. -/
def strayOctet : Octets := [0xFF]

theorem load_strayBracket : Project.load (projectDisk strayBracket)
    (workingPath (projectDisk strayBracket)) = .error (.rejected (.invalid projectFile)) := by
  have hsource : Yaml.Source.ofOctets strayBracket = { text := [']'], ending := none } := by
    have htext : (Yaml.Source.ofOctets strayBracket).text = [']'] := by decide +kernel
    have hending : (Yaml.Source.ofOctets strayBracket).ending = none := by decide +kernel
    rw [← htext, ← hending]
  have hinvalid : Yaml.load strayBracket = .error .invalid := by
    rw [Yaml.load, hsource]
    rfl
  have hread := read_projectDisk strayBracket
  rw [(Project.load_of_isFileOf (isFileOf_projectDisk _) (Project.isThere_of_read hread)).2 _ hread]
  exact Project.ofOctets_of_invalid projectFile hinvalid

theorem projectFile_told_strayBracket :
    Project.IsFileOf (projectDisk strayBracket) (workingPath (projectDisk strayBracket))
        projectFile ∧
      (projectDisk strayBracket).read projectFile = .ok strayBracket ∧
      ¬ Project.Slips strayBracket ∧
      (run {} [] (projectDisk strayBracket)).output = [] ∧
      (run {} [] (projectDisk strayBracket)).ending = .ok 1 ∧
      "todoscan: ".toList <+: (run {} [] (projectDisk strayBracket)).messages := by
  have hfile := isFileOf_projectDisk strayBracket
  have hread := read_projectDisk strayBracket
  obtain ⟨-, hoctets, hrejected⟩ := projectFile_told hfile
  refine ⟨hfile, hread, (hoctets _ hread).1.1 (.inr ⟨_, load_strayBracket, rfl⟩), ?_⟩
  exact hrejected _ rfl load_strayBracket {} [] {} rfl

/-- Octets that are no text slip, and a run ends without a word. -/
theorem not_told_strayOctet :
    Project.IsFileOf (projectDisk strayOctet) (workingPath (projectDisk strayOctet)) projectFile ∧
      (projectDisk strayOctet).read projectFile = .ok strayOctet ∧
      Project.load (projectDisk strayOctet) (workingPath (projectDisk strayOctet)) =
        .error (.noValue .notText) ∧
      ¬ Project.Told (projectDisk strayOctet) (workingPath (projectDisk strayOctet)) projectFile ∧
      run {} [] (projectDisk strayOctet) = { ending := .error (.project (.noValue .notText)) } := by
  have hblock : Yaml.Arrival.block? { unread := strayOctet } = none :=
    Option.isNone_iff_eq_none.1 (by decide +kernel)
  have hsource : Yaml.Source.ofOctets strayOctet = { text := [], ending := some .notText } := by
    rw [Yaml.Source.ofOctets, hblock]
    rfl
  have hfile := isFileOf_projectDisk strayOctet
  have hread := read_projectDisk strayOctet
  have hnotText : Yaml.load strayOctet = .error .notText := by
    rw [Yaml.load, hsource]
    rfl
  have hload : Project.load (projectDisk strayOctet) (workingPath (projectDisk strayOctet)) =
      .error (.noValue .notText) := by
    rw [(Project.load_of_isFileOf hfile (Project.isThere_of_read hread)).2 _ hread]
    exact Project.ofOctets_of_fault projectFile hnotText (by decide)
  refine ⟨hfile, hread, hload, ?_, run_of_error rfl hload fun r h => nomatch h⟩
  rintro (⟨p, hp⟩ | ⟨r, hr, -⟩)
  · cases hload.symm.trans hp
  · cases hload.symm.trans hr

end Command

end SourceNotes
