/-
The program.

Takes a picture of the places that the arguments and the settings are about, runs the
command on it, and prints what comes of it.
-/
import SourceNotes.Command.Run

namespace SourceNotes.Program

/-- A text as a string. -/
def shown (s : Text) : String := String.ofList s

/-- The path of a place. -/
def pathOf (place : IO.FS.DirEntry) : Path := .ofText place.path.toString.toList

/-- What is at a place. A link leads straight to where it ends. -/
partial def picture (place : IO.FS.DirEntry) : IO FileTree := do
  match ← place.path.symlinkMetadata.toBaseIO with
  | .error _ => return .file none
  | .ok data =>
    match data.type with
    | .symlink =>
      match ← (IO.FS.realPath place.path).toBaseIO with
      | .ok target => return .link target.toString.toList
      | .error _ => return .link []
    | .dir =>
      match ← place.path.readDir.toBaseIO with
      | .error _ => return .folder false []
      | .ok entries =>
        return .folder true
          (← entries.toList.mapM fun e => do return (e.fileName.toList, ← picture e))
    | .file =>
      match ← (IO.FS.readBinFile place.path).toBaseIO with
      | .ok octets => return .file (some octets.toList)
      | .error _ => return .file none
    | .other => return .file none

/-- Where the links in a tree lead. -/
partial def targets : FileTree → List Text
  | .file _ => []
  | .link target => if target = [] then [] else [target]
  | .folder _ entries => entries.flatMap fun e => targets e.2

/-- Puts into a tree what is at the end of a path that goes on from the folder `above`
with `names`, and all that it leads through. -/
partial def reach (tree : FileTree) (above : String) (names : List Text) : IO FileTree := do
  match names with
  | [] => return tree
  | name :: rest =>
    let place : IO.FS.DirEntry := { root := above, fileName := shown name }
    match ← (IO.FS.realPath place.path).toBaseIO with
    | .error _ => return tree
    | .ok real =>
      let real := real.toString
      let tree :=
        if name = ['.', '.'] ∨ Path.ofText real.toList = pathOf place then tree
        else (FileTree.link real.toList).put (pathOf place).names tree
      let there ← picture { root := above, fileName := real }
      let kept : FileTree := match rest, there with
        | _ :: _, .folder .. => .folder true []
        | _, there => there
      let tree := kept.put (Path.ofText real.toList).names tree
      reach tree real rest

/-- The disk, as far as the listed paths and the files that the command itself reads
are concerned. -/
def disk (paths : List Text) : IO Disk := do
  let here := (← IO.FS.realPath ".").toString
  let workingFolder := (Path.ofText here.toList).names
  let wanted := Settings.fileName :: Project.fileName :: paths
  let start := (FileTree.folder true []).put workingFolder (.folder true [])
  let tree ← wanted.foldlM (fun tree path => do
    let path := Path.ofText path
    if path.isAbsolute then reach tree "/" path.names
    else reach tree here (if path.names = [] then [['.']] else path.names)) start
  let tree ← (targets tree).foldlM (fun tree target => do
    let place : IO.FS.DirEntry := { root := "/", fileName := shown target }
    match ← picture place with
    | .file content => return (FileTree.file content).put (pathOf place).names tree
    | _ => return tree) tree
  return { root := tree, workingFolder }

/-- The variables of the environment that are settings. -/
def environment : IO (List (Text × Text)) := do
  let names := ["app_name", "app_env", "log_level", "charset", "todo_types", "output"].map
    fun name => shown Settings.namePrefix ++ name
  let found ← (names.map String.toUpper ++ names).filterMapM fun name => do
    return (← IO.getEnv name).map fun value => (name.toList, value.toList)
  return found

/-- The paths that arguments ask to be scanned. -/
def listedPaths (arguments : List Text) : List Text :=
  match Command.Request.ofArguments arguments with
  | .ok (.scan a) => if a.paths = [] then [['.']] else a.paths
  | _ => []

/-- Runs the program. -/
def run (arguments : List Text) : IO UInt32 := do
  let disk ← disk (listedPaths arguments)
  match Settings.load (← environment) disk with
  | .error (.logLevel given) =>
    IO.eprint (shown (Command.message s!"unknown log level: {shown given}"))
    return UInt32.ofNat Command.usageCode
  | .error (.unreadable cause) =>
    IO.eprint (shown (Command.message s!"reading the file of settings: {cause.message}"))
    return UInt32.ofNat Command.usageCode
  | .error .notText =>
    IO.eprint (shown (Command.message "the file of settings is not UTF-8"))
    return UInt32.ofNat Command.usageCode
  | .ok settings =>
    let outcome := Command.run settings arguments disk
    IO.print (shown outcome.output)
    IO.eprint (shown outcome.messages)
    match outcome.ending with
    | .ok code => return UInt32.ofNat code
    | .error abort =>
      IO.eprint (shown (Command.message abort.message))
      return UInt32.ofNat Command.usageCode

end SourceNotes.Program

def main (arguments : List String) : IO UInt32 :=
  SourceNotes.Program.run (arguments.map String.toList)
