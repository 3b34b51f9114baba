/-
Project files.

A project can say in a file `.todoscan.yml` what is to be looked for in it and where.
Every entry of the file is optional, but an unknown or ill-typed one spoils it all.

* **`Project.load`** — what a project file says;
* **`Project.Rejection.message`** — why it cannot be used.
-/
import SourceNotes.FileTree
import SourceNotes.Yaml.Value

namespace SourceNotes

/-- What a project asks for. -/
structure Project where
  kinds : List Codes := []
  excludeFiles : List Codes := []
  excludeFolders : List Codes := []
  charset : Option Codes := none
  deriving DecidableEq, Repr

namespace Project

/-- Why a project file is rejected. -/
inductive Rejection where
  /-- It cannot be read. -/
  | unreadable (path : Path) (cause : SystemError)
  /-- It is not YAML. -/
  | invalid (path : Path)
  /-- It holds something other than entries. -/
  | noMapping (path : Path)
  /-- Some entries are unknown or ill-typed, or items of theirs are. -/
  | misfits (path : Path) (count : Nat)
  deriving DecidableEq, Repr

/-- The file that was rejected. -/
def Rejection.path : Rejection → Path
  | .unreadable path _ | .invalid path | .noMapping path | .misfits path _ => path

/-- The wording of a rejection. -/
def Rejection.message (r : Rejection) : String :=
  let shown := String.ofList r.path.toText
  match r with
  | .unreadable path cause =>
    s!"reading {shown}: [Errno {cause.number}] {cause.message}: " ++
      String.ofList (Text.quoted path.toText)
  | .invalid _ => s!"invalid YAML in {shown}"
  | .noMapping _ => s!"{shown}: expected a mapping"
  | .misfits _ count =>
    let plural := if count = 1 then "" else "s"
    s!"{shown}: {count} validation error{plural} for ProjectConfig"

/-- Why nothing comes of a project file. -/
inductive Error where
  | rejected (r : Rejection)
  /-- The path cannot even be looked up. -/
  | system (cause : SystemError)
  /-- It is not UTF-8, or a scalar in it has no value. -/
  | noValue (fault : Yaml.Fault)
  /-- One of its keys is no text. -/
  | oddKey
  deriving DecidableEq, Repr

/-- The name of the project file in a folder. -/
def fileName : Text := ".todoscan.yml".toList

open Yaml (Atom Contents Ref Value)

/-- The text that a value is. Octets are text if they are UTF-8. -/
def text? : Atom → Option Codes
  | .text c => some c
  | .octets o => (Charset.decodeStrict o).map Codes.ofText
  | _ => none

/-- The text that a value is. -/
def Value.text? : Value → Option Codes
  | .atom a => Project.text? a
  | _ => none

/-- The texts of a list, or the number of its items that are none. -/
def texts (items : List (Option Codes)) : Except Nat (List Codes) :=
  let there := items.filterMap id
  if there.length = items.length then .ok there else .error (items.length - there.length)

/-- The list of texts that a value is, or the number of faults in it. A text is cut at
commas. -/
def textList (c : Contents) : Value → Except Nat (List Codes)
  | .atom (.text s) => .ok s.commaList
  | .list items => texts (items.map fun ref => Value.text? (c.get ref))
  | .pairs items => texts (items.map fun _ => none)
  | .set keys => texts (keys.map text?)
  | _ => .error 1

/-- The character set that a value names, or the number of faults in it. -/
def charsetName : Value → Except Nat (Option Codes)
  | .atom .null => .ok none
  | v =>
    match Value.text? v with
    | some s => .ok (some s)
    | none => .error 1

/-- The entries with the last value of each key, if all keys are texts. -/
def lastOfEach : List (Atom × Ref) → Except Error (List (Codes × Ref))
  | [] => .ok []
  | (key, value) :: entries => do
    let later ← lastOfEach entries
    match key with
    | .text k => return if later.any (·.1 == k) then later else (k, value) :: later
    | _ => throw .oddKey

/-- The name of an entry. -/
inductive Entry where
  | kinds
  | excludeFiles
  | excludeFolders
  | charset
  deriving DecidableEq, Repr

/-- The entry that a key names. -/
def entry? (key : Codes) : Option Entry :=
  if key = Codes.ofString "todo_types" then some .kinds
  else if key = Codes.ofString "exclude" then some .excludeFiles
  else if key = Codes.ofString "exclude_dir" then some .excludeFolders
  else if key = Codes.ofString "charset" then some .charset
  else none

/-- The project with one entry set, or the number of faults in that. -/
def withEntry (c : Contents) (p : Project) (key : Codes) (value : Value) : Except Nat Project :=
  match entry? key with
  | some .kinds => (textList c value).map fun l => { p with kinds := l }
  | some .excludeFiles => (textList c value).map fun l => { p with excludeFiles := l }
  | some .excludeFolders => (textList c value).map fun l => { p with excludeFolders := l }
  | some .charset => (charsetName value).map fun name => { p with charset := name }
  | none => .error 1

/-- What entries say, and the number of faults in them. -/
def ofEntries (c : Contents) (entries : List (Codes × Ref)) : Project × Nat :=
  entries.foldl (fun (p, faults) (key, value) =>
    match withEntry c p key (c.get value) with
    | .ok p => (p, faults)
    | .error n => (p, faults + n)) ({}, 0)

/-- What the contents of a project file say. -/
def ofContents (path : Path) (c : Contents) : Except Error Project :=
  match c.whole with
  | .atom .null => .ok {}
  | .map entries => do
    let (p, faults) := ofEntries c (← lastOfEach entries)
    if faults = 0 then return p else throw (.rejected (.misfits path faults))
  | _ => .error (.rejected (.noMapping path))

/-- What the octets of a project file say. -/
def ofOctets (path : Path) (octets : Octets) : Except Error Project :=
  match Yaml.load octets with
  | .error .invalid => .error (.rejected (.invalid path))
  | .error fault => .error (.noValue fault)
  | .ok contents => ofContents path contents

/-- What a project file says, which is given itself or by its folder. Without a file
the project asks for nothing. -/
def load (disk : Disk) (path : Path) : Except Error Project := do
  let path ← match disk.isFolder path with
    | .ok true => pure (path.append { names := [fileName] })
    | .ok false => pure path
    | .error e => throw (.system e)
  match disk.isThere path with
  | .error e => throw (.system e)
  | .ok false => return {}
  | .ok true =>
    match disk.read path with
    | .error e => throw (.rejected (.unreadable path e))
    | .ok octets => ofOctets path octets

end Project

end SourceNotes
