/-
Running the command.

A run reads the project file of the working folder, settles what is to be looked for
and how it is to be shown, and walks the listed paths. The arguments come first, then
the project file, then the settings.

* **`Command.run`** — what a run prints and how it ends.
-/
import SourceNotes.Command.Arguments
import SourceNotes.Language.Table
import SourceNotes.Project
import SourceNotes.Report.Format
import SourceNotes.Settings.Basic
import SourceNotes.Walk

namespace SourceNotes.Command

/-- An error that ends a run without an exit code of its own. -/
inductive Abort where
  | project (error : Project.Error)
  | walk (abort : Walk.Abort)

/-- The wording of an error. -/
def Abort.message : Abort → String
  | .project (.system cause) | .walk (.system cause) => cause.message
  | .project (.noValue .notText) => "the project file is not UTF-8"
  | .project .oddKey => "a key in the project file is not text"
  | .project (.noValue fault) => s!"a value in the project file: {fault.message}"
  | .project (.rejected r) => r.message
  | .walk (.read error) => error.message
  | .walk (.charset error) => error.message

/-- What a run prints and how it ends. -/
structure Outcome where
  output : Text := []
  messages : Text := []
  ending : Except Abort Nat

/-- The exit code of a run without failures. -/
def successCode : Nat := 0

/-- The exit code of a run that was asked for something impossible. -/
def usageCode : Nat := 1

/-- The exit code of a walk with failures. -/
def failureCode : Nat := 2

/-- The name of the command. -/
def name : String := "todoscan"

/-- The version of the command. -/
def version : String := "0.1.0"

/-- What is printed as a message. -/
def message (text : String) : Text := Screen.layout s!"{name}: {text}".toList

/-- The outcome of a run that was asked for something impossible. -/
def refusal (text : String) : Outcome := { messages := message text, ending := .ok usageCode }

/-- What is printed when the version is asked for. -/
def versionText : Text :=
  Screen.layout s!"{name} {version}".toList ++
    Screen.layout s!"{Language.names.length} supported languages".toList

/-- What is printed when help is asked for. -/
def helpText : Text := Screen.layout s!"Usage: {name} [OPTIONS] [PATHS]...".toList

/-- The first of three texts that is not empty, or the last one. -/
def firstGiven (a b : Option Codes) (c : Codes) : Codes :=
  match a.filter (· ≠ []), b.filter (· ≠ []) with
  | some s, _ => s
  | none, some s => s
  | none, none => c

/-- The name of the output format. -/
def formatName (a : Arguments) (s : Settings) : Text := a.output.getD s.output

/-- The kinds of notes that are looked for. If they are given as an argument, that
counts even if it names none. -/
def wantedKinds (a : Arguments) (p : Project) (s : Settings) : List Codes :=
  match a.kinds with
  | some given => (Text.commaList given).map Codes.ofText
  | none =>
    if p.kinds ≠ [] then p.kinds
    else (if s.kindList ≠ [] then s.kindList else Note.defaultKinds).map Codes.ofText

/-- The walk that a run makes. A kind that is no text is looked for in vain. -/
def walkOptions (a : Arguments) (p : Project) (s : Settings) : Walk.Options where
  paths := if a.paths = [] then [['.']] else a.paths
  kinds := (wantedKinds a p s).filterMap Codes.text?
  charset := firstGiven (a.charset.map Codes.ofText) p.charset (Codes.ofText s.charset)
  excludeFiles := p.excludeFiles.map Glob.ofCodes ++ a.excludeFiles.map Glob.ofText
  excludeFolders := p.excludeFolders.map Glob.ofCodes ++ a.excludeFolders.map Glob.ofText
  includeHidden := !a.excludeHidden
  includeVersionControl := a.includeVersionControl
  includeVendored := a.includeVendored
  labels := a.labels.map Glob.ofText

/-- What is printed for an event of a walk. -/
def printed (format : Format) : Walk.Event → Text
  | .note path note => format.print path.toText note
  | .failure _ => []

/-- The message for an event of a walk. -/
def reported : Walk.Event → Text
  | .note .. => []
  | .failure e => message e.message

/-- The outcome of a walk. -/
def Outcome.ofTrail (format : Format) (t : Walk.Trail) : Outcome where
  output := t.events.flatMap (printed format)
  messages := t.events.flatMap reported
  ending :=
    match t.abort with
    | some abort => .error (.walk abort)
    | none => .ok (if t.failed then failureCode else successCode)

/-- Scans as a project asks for it. -/
def scanProject (a : Arguments) (p : Project) (s : Settings) (disk : Disk) : Outcome :=
  match Format.ofName? (formatName a s) with
  | none => refusal s!"invalid output type: {String.ofList (formatName a s)}"
  | some format =>
    if wantedKinds a p s = [] then refusal "no TODO types given"
    else .ofTrail format (Walk.run (walkOptions a p s) disk)

/-- The working folder as an absolute path. -/
def workingPath (disk : Disk) : Path := { root := ['/'], names := disk.workingFolder }

/-- Scans as arguments ask for it. -/
def scan (a : Arguments) (s : Settings) (disk : Disk) : Outcome :=
  match Project.load disk (workingPath disk) with
  | .ok p => scanProject a p s disk
  | .error (.rejected r) => refusal r.message
  | .error e => { ending := .error (.project e) }

/-- Runs the command. Arguments that make no sense end the run without a message of
this library. -/
def run (s : Settings) (arguments : List Text) (disk : Disk) : Outcome :=
  match Request.ofArguments arguments with
  | .error _ => { ending := .ok usageCode }
  | .ok .version => { output := versionText, ending := .ok successCode }
  | .ok .help => { output := helpText, ending := .ok successCode }
  | .ok (.scan a) => scan a s disk

end SourceNotes.Command
