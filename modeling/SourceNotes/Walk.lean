/-
Walking files and folders for notes.

A walk goes through the listed paths in order, and through folders in the order of
the names in them. It records what it meets as events: the notes it finds and the
failures it runs into. A failure does not end the walk; only an error that no file
can be blamed for does.

* **`Walk.run`** — the trail of events of a walk;
* **`Trail.failed`** — whether a failure is among them;
* **`Trail.cut`** — the trail up to an event at which its receiver stops the walk.
-/
import SourceNotes.Charset.Elsewhere
import SourceNotes.Ignore.Table
import SourceNotes.Note.Finder
import SourceNotes.SourceFile

namespace SourceNotes

/-- What goes wrong with a path of a walk. -/
inductive WalkError where
  /-- A listed path leads nowhere. -/
  | missing (path : Text)
  /-- The system refuses to list or read it. -/
  | refused (path : Path) (cause : SystemError)
  /-- It cannot be opened as a source file. -/
  | unopened (path : Path) (cause : SourceFile.OpenError)
  /-- The scan of the file was ended by an error. -/
  | unscanned (path : Path) (cause : ReadError)

/-- The wording of a failure. -/
def WalkError.message : WalkError → String
  | .missing path => s!"{String.ofList path}: no such file or directory"
  | .refused path cause => s!"{String.ofList path.toText}: {cause.message}"
  | .unopened path (.charset name fault) =>
    let cause := SourceFile.OpenError.charset name fault
    s!"{String.ofList path.toText}: {cause.message}"
  | .unopened _ cause => cause.message
  | .unscanned path cause => s!"{String.ofList path.toText}: {cause.message}"

namespace Walk

/-- What a walk is asked to do. Hidden, version-control and vendored paths are
only left out where the walk comes upon them. -/
structure Options where
  paths : List Text := [['.']]
  kinds : List Text := Note.defaultKinds
  charset : Codes := Codes.ofString "utf-8"
  /-- Tables of character sets that the library does not have. -/
  tables : List Charset.Table := []
  excludeFiles : List Glob := []
  excludeFolders : List Glob := []
  includeHidden : Bool := false
  includeVersionControl : Bool := false
  includeVendored : Bool := false
  /-- Globs of which a label has to fit one, if there are any. -/
  labels : List Glob := []
  ignoreFileNames : List Text := Ignore.defaultFileNames

/-- The folders of version-control systems. -/
def versionControlFolders : List Text := [".git", ".hg", ".svn"].map String.toList

/-- The folders that hold the code of others. -/
def vendoredFolders : List Text :=
  ["node_modules", "bower_components", "vendor", "vendors", "third_party", "third-party",
    "3rdparty", "external", "Godeps", "Carthage", "Pods", "site-packages",
    "dist-packages"].map String.toList

/-- Whether a name is that of a hidden file or folder. -/
def isHidden (name : Text) : Bool :=
  name.head? = some '.' ∧ name ≠ ['.'] ∧ name ≠ ['.', '.']

/-- What a walk reports. -/
inductive Event where
  | note (path : Path) (note : Note)
  | failure (error : WalkError)

/-- Whether an event is a failure. -/
def Event.isFailure : Event → Bool
  | .failure _ => true
  | .note .. => false

/-- What ends a walk before its time. -/
inductive Abort where
  /-- Content without the byte-order mark that it needs. -/
  | read (error : ReadError)
  /-- A path that cannot even be looked up. -/
  | system (error : SystemError)
  /-- A character set name that holds a NUL or codes that are no characters, or that only the
  system knows: then it cannot be told how the walk goes on. -/
  | charset (error : SourceFile.OpenError)

/-- The events of a walk or of a part of it, and what ended it early. -/
structure Trail where
  events : List Event := []
  abort : Option Abort := none

namespace Trail

/-- One trail after another; what comes after an abort does not happen. -/
def append (a b : Trail) : Trail :=
  match a.abort with
  | some _ => a
  | none => { events := a.events ++ b.events, abort := b.abort }

/-- Trails one after another. -/
def concat (trails : List Trail) : Trail := trails.foldr append {}

/-- A single failure. -/
def failure (e : WalkError) : Trail := { events := [.failure e] }

/-- Whether a failure was reported. -/
def failed (t : Trail) : Bool := t.events.any Event.isFailure

/-- The trail up to the first event at which its receiver stops the walk. The
receiver is told how many events there have been, that one included. -/
def cut (stops : Nat → Event → Bool) (t : Trail) : Trail × Option Event :=
  match (t.events.zipIdx 1).find? fun e => stops e.2 e.1 with
  | some (event, n) => ({ t with events := t.events.take n, abort := none }, some event)
  | none => (t, none)

end Trail

/-- Whether the walk goes into a folder that it comes upon. -/
def entersFolder (o : Options) (ignore : Ignore.Table) (path : Path) : Bool :=
  let name := path.name
  !Glob.anyFits o.excludeFolders name
    && (o.includeVersionControl || !versionControlFolders.contains name)
    && (o.includeHidden || !isHidden name || versionControlFolders.contains name)
    && (o.includeVendored || !vendoredFolders.contains name)
    && !ignore.ignores path true

/-- Whether the walk scans a file that it comes upon. -/
def takesFile (o : Options) (ignore : Ignore.Table) (path : Path) : Bool :=
  let name := path.name
  !Glob.anyFits o.excludeFiles name
    && (o.includeHidden || !isHidden name)
    && !ignore.ignores path false

/-- Whether a note is wanted because of its label. -/
def wantsLabel (o : Options) (label : Text) : Bool :=
  o.labels.isEmpty || Glob.anyFits o.labels label

/-- Scans the content of a file. A file that was come upon (not `listed`) is passed
over if it is no source file. -/
def scanContent (o : Options) (path : Path) (content : Octets) (listed : Bool) : Trail :=
  match SourceFile.ofOctets path.toText content o.charset o.tables with
  | .error (.charset name .nul) => { abort := some (.charset (.charset name .nul)) }
  | .error (.brokenCharset name) => { abort := some (.charset (.brokenCharset name)) }
  | .error (.charset name .unknown) =>
    if Charset.isElsewhere name then { abort := some (.charset (.charset name .unknown)) }
    else .failure (.unopened path (.charset name .unknown))
  | .error cause => if listed then .failure (.unopened path cause) else {}
  | .ok file =>
    let (notes, last) := (Finder.ofScanner o.kinds file.scanner).drain
    let found := (notes.filter fun n => wantsLabel o n.label).map (Event.note path)
    match last with
    | .ok none => { events := found }
    | .ok (some e) => { events := found ++ [.failure (.unscanned path e)] }
    | .error e => { events := found, abort := some (.read e) }

/-- Scans a file, if it can be read. -/
def scanFile (o : Options) (path : Path) (content : Except SystemError Octets) (listed : Bool) :
    Trail :=
  match content with
  | .ok octets => scanContent o path octets listed
  | .error e => .failure (.refused path e)

/-- Entries in the order of their names. -/
def inOrder (entries : List (Text × FileTree)) : List (Text × FileTree) :=
  entries.mergeSort fun a b => Text.notAfter a.1 b.1

/-- The content of a file that a walk comes upon. -/
def contentAt (path : Path) (content : Option Octets) : Except SystemError Octets :=
  if Disk.isTooLong path then .error .nameTooLong else Disk.contentOf (.file content)

/-- What is done with a file: its path, its content, and whether it was listed. -/
abbrev Scan := Path → Except SystemError Octets → Bool → Trail

/-- A part of a walk, which may read ignore files and leaves what it has read to the next part. -/
abbrev Part := Ignore.Table → Trail × Ignore.Table

/-- Parts of a walk in turn. -/
def inTurn : List Part → Part
  | [], ignore => ({}, ignore)
  | part :: parts, ignore =>
    let (trail, ignore) := part ignore
    let (rest, ignore) := inTurn parts ignore
    (trail.append rest, ignore)

/-- Walks a folder, and scans the files that are to be taken. Links in it are left alone. -/
def folder (o : Options) (scan : Scan) (disk : Disk) (path : Path) (tree : FileTree) : Part :=
  fun ignore =>
    match tree with
    | .folder listable entries =>
      match ignore.load disk path with
      | .error e => ({ abort := some (.system e) }, ignore)
      | .ok ignore =>
        if Disk.isTooLong path then (.failure (.refused path .nameTooLong), ignore)
        else if listable then
          let parts := (inOrder entries).attach.map fun ⟨(name, there), _hmem⟩ ignore =>
            let path := path.append { names := [name] }
            match there with
            | .link _ => ({}, ignore)
            | .folder listable inner =>
              if entersFolder o ignore path then
                folder o scan disk path (.folder listable inner) ignore
              else ({}, ignore)
            | .file content =>
              (if takesFile o ignore path then scan path (contentAt path content) false else {},
                ignore)
          inTurn parts ignore
        else (.failure (.refused path .accessDenied), ignore)
    | _ => (.failure (.refused path .notAFolder), ignore)
termination_by sizeOf tree
decreasing_by
  have := List.sizeOf_lt_of_mem (List.mem_mergeSort.1 _hmem)
  simp only [Prod.mk.sizeOf_spec, FileTree.folder.sizeOf_spec] at this ⊢
  omega

/-- Walks one listed path. -/
def listed (o : Options) (scan : Scan) (disk : Disk) (raw : Text) : Trail :=
  let path := Path.ofText raw
  match disk.isFolder path, disk.isThere path with
  | .error e, _ => { abort := some (.system e) }
  | .ok true, _ =>
    match disk.find path with
    | .ok tree => (folder o scan disk path tree { root := path, fileNames := o.ignoreFileNames }).1
    | .error e => .failure (.refused path e)
  | .ok false, .error e => { abort := some (.system e) }
  | .ok false, .ok true => scan path (disk.read path) true
  | .ok false, .ok false => .failure (.missing raw)

/-- Walks all listed paths. -/
def run (o : Options) (disk : Disk) : Trail :=
  .concat (o.paths.map (listed o (scanFile o) disk))

end Walk

end SourceNotes
