/-
File trees.

A tree holds files, folders and symbolic links. Paths are looked up in a `Disk`,
a tree together with the folder that relative paths start from. Links are
followed as they are met, at most forty of them in one look-up, so that a path may come to
one and the same place in many ways.

* **`FileTree.put`** — a tree with something put into it;
* **`Disk.locate`** — the place that a path leads to;
* **`Disk.find`** — what is there;
* **`Disk.isFolder`**, **`Disk.isFile`**, **`Disk.isThere`** — what is known about
  a path that may lead nowhere;
* **`Disk.read`** — the octets of a file.
-/
import SourceNotes.Charset.Octets
import SourceNotes.Path

namespace SourceNotes

/-- Why the system refuses to look something up or to read it. -/
inductive SystemError where
  | notFound
  | notAFolder
  | isAFolder
  | accessDenied
  | tooManyLinks
  | nameTooLong
  /-- A path holds a NUL. -/
  | nulInPath
  deriving DecidableEq, Repr

/-- The wording of a refusal. -/
def SystemError.message : SystemError → String
  | .notFound => "No such file or directory"
  | .notAFolder => "Not a directory"
  | .isAFolder => "Is a directory"
  | .accessDenied => "Permission denied"
  | .tooManyLinks => "Too many levels of symbolic links"
  | .nameTooLong => "File name too long"
  | .nulInPath => "embedded null byte"

/-- The number by which the system tells its refusals apart. -/
def SystemError.number : SystemError → Nat
  | .notFound => 2
  | .notAFolder => 20
  | .isAFolder => 21
  | .accessDenied => 13
  | .tooManyLinks => 40
  | .nameTooLong => 36
  | .nulInPath => 0

/-- What is at a place in a tree. -/
inductive FileTree where
  /-- A file; one without content cannot be read. -/
  | file (content : Option Octets)
  /-- A folder; all can be looked up in it, but it may refuse to be listed. -/
  | folder (listable : Bool) (entries : List (Text × FileTree))
  /-- A symbolic link. -/
  | link (target : Text)

/-- A tree with something put at a place in it, below the folders that lead there. A
folder that is put in the place of another keeps what only the other holds. -/
def FileTree.put (there : FileTree) : List Text → FileTree → FileTree
  | [], tree =>
    match there, tree with
    | .folder listable new, .folder _ old =>
      .folder listable (new ++ old.filter fun e => (new.lookup e.1).isNone)
    | _, _ => there
  | name :: names, .folder listable entries =>
    let inner := (entries.lookup name).getD (.folder true [])
    .folder listable ((name, put there names inner) :: entries.filter (·.1 != name))
  | _ :: _, tree => tree

/-- A place in a tree, given by the names that lead there from its root, and what is there. -/
structure Spot where
  place : List Text
  there : FileTree

/-- A tree and the folder in it that relative paths start from. -/
structure Disk where
  root : FileTree
  workingFolder : List Text := []

namespace Disk

/-- The most links that one look-up follows. -/
def maxLinks : Nat := 40

/-- The most octets in a name, and in a path as a whole. -/
def maxName : Nat := 255
def maxPath : Nat := 4095

/-- The number of octets that a text takes. -/
def octetLength (s : Text) : Nat := s.foldl (fun n c => n + c.utf8Size) 0

/-- Goes along `names` from the last folder of `trail`, which holds the folders on the way there,
innermost first; `links` more links may be followed. -/
def follow (root : FileTree) (links : Nat) (trail : List Spot) (names : List Text) :
    Except SystemError Spot :=
  match trail, names with
  | [], _ => .error .notFound
  | here :: _, [] => .ok here
  | here :: above, name :: names =>
    match here.there with
    | .folder _ entries =>
      if name = [] ∨ name = ['.'] then follow root links (here :: above) names
      else if name = ['.', '.'] then
        follow root links (if above = [] then [here] else above) names
      else if maxName < octetLength name then .error .nameTooLong
      else
        match entries.lookup name with
        | none => .error .notFound
        | some (.link target) =>
          match links with
          | 0 => .error .tooManyLinks
          | links + 1 =>
            if target = [] then .error .notFound
            else
              let start := if target.head? = some '/' then [⟨[], root⟩] else here :: above
              follow root links start (Text.pieces '/' target ++ names)
        | some there => follow root links (⟨here.place ++ [name], there⟩ :: here :: above) names
    | _ => .error .notAFolder
termination_by (links, names.length)

/-- Whether a path has more octets than the system takes. -/
def isTooLong (path : Path) : Bool := maxPath < octetLength path.toText

/-- The place that a path leads to. -/
def locate (disk : Disk) (path : Path) : Except SystemError Spot :=
  if '\x00' ∈ path.toText then .error .nulInPath
  else if isTooLong path then .error .nameTooLong
  else
    let start := if path.isAbsolute then [] else disk.workingFolder
    follow disk.root maxLinks [⟨[], disk.root⟩] (start ++ path.names)

/-- What a path leads to. -/
def find (disk : Disk) (path : Path) : Except SystemError FileTree :=
  (disk.locate path).map Spot.there

/-- Whether a refusal only means that a path leads nowhere. -/
def leadsNowhere : SystemError → Bool
  | .notFound | .notAFolder | .tooManyLinks | .nulInPath => true
  | _ => false

/-- Asks about what a path leads to; the answer is no if it leads nowhere. -/
def holds (disk : Disk) (p : FileTree → Bool) (path : Path) : Except SystemError Bool :=
  match disk.find path with
  | .ok tree => .ok (p tree)
  | .error e => if leadsNowhere e then .ok false else .error e

/-- Whether a path leads to a folder. -/
def isFolder (disk : Disk) (path : Path) : Except SystemError Bool :=
  disk.holds (fun | .folder .. => true | _ => false) path

/-- Whether a path leads to a file. -/
def isFile (disk : Disk) (path : Path) : Except SystemError Bool :=
  disk.holds (fun | .file _ => true | _ => false) path

/-- Whether a path leads to anything. -/
def isThere (disk : Disk) (path : Path) : Except SystemError Bool :=
  disk.holds (fun _ => true) path

/-- The octets of what is at a place in a tree. -/
def contentOf : FileTree → Except SystemError Octets
  | .file (some octets) => .ok octets
  | .file none => .error .accessDenied
  | .folder .. => .error .isAFolder
  | .link _ => .error .notFound

/-- The octets of the file that a path leads to. -/
def read (disk : Disk) (path : Path) : Except SystemError Octets := do
  contentOf (← disk.find path)

end Disk

end SourceNotes
