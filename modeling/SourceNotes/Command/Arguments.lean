/-
Command-line arguments.

Options and paths may be mixed. A long option gets its value after an equals sign or
from the next argument, the short one from the characters after its letter or from
the next argument; any text will do as a value. After `--` there are only paths.

* **`Request.ofArguments`** — what arguments ask for.
-/
import SourceNotes.Text.Pieces

namespace SourceNotes.Command

/-- What the arguments of a scan say. -/
structure Arguments where
  paths : List Text := []
  kinds : Option Text := none
  output : Option Text := none
  charset : Option Text := none
  excludeFiles : List Text := []
  excludeFolders : List Text := []
  labels : List Text := []
  excludeHidden : Bool := false
  includeVersionControl : Bool := false
  includeVendored : Bool := false
  deriving DecidableEq, Repr

/-- What a command can be asked for. -/
inductive Request where
  | scan (arguments : Arguments)
  | version
  | help
  deriving DecidableEq, Repr

/-- Why arguments make no sense. -/
inductive UsageError where
  | unknown (option : Text)
  | missingValue (option : Text)
  | unwantedValue (option : Text)
  deriving DecidableEq, Repr

/-- The options that take a value. -/
inductive Setting where
  | kinds
  | output
  | charset
  | excludeFile
  | excludeFolder
  | label
  deriving DecidableEq, Repr

/-- The options that take no value. -/
inductive Switch where
  | excludeHidden
  | includeVersionControl
  | includeVendored
  | version
  | help
  deriving DecidableEq, Repr

/-- An option that takes a value or not. -/
abbrev Flag := Setting ⊕ Switch

/-- The long options. -/
def longOptions : List (String × Flag) :=
  [("--todo-types", .inl .kinds), ("--output", .inl .output), ("--charset", .inl .charset),
    ("--exclude", .inl .excludeFile), ("--exclude-dir", .inl .excludeFolder),
    ("--label", .inl .label), ("--exclude-hidden", .inr .excludeHidden),
    ("--include-vcs", .inr .includeVersionControl),
    ("--include-vendored", .inr .includeVendored), ("--version", .inr .version),
    ("--help", .inr .help)]

/-- The long option with a given name. -/
def longOption? (name : Text) : Option Flag :=
  (longOptions.find? fun o => o.1.toList == name).map (·.2)

/-- The letter of the only short option, which names the output format. -/
def outputLetter : Char := 'o'

/-- The arguments with a setting. The last value of a setting counts, except where
all of them do. -/
def Arguments.set (a : Arguments) (value : Text) : Setting → Arguments
  | .kinds => { a with kinds := some value }
  | .output => { a with output := some value }
  | .charset => { a with charset := some value }
  | .excludeFile => { a with excludeFiles := a.excludeFiles ++ [value] }
  | .excludeFolder => { a with excludeFolders := a.excludeFolders ++ [value] }
  | .label => { a with labels := a.labels ++ [value] }

/-- The request with a setting in it. -/
def Request.set (r : Request) (value : Text) (setting : Setting) : Request :=
  match r with
  | .scan a => .scan (a.set value setting)
  | r => r

/-- The request with one more path in it. -/
def Request.addPath (r : Request) (path : Text) : Request :=
  match r with
  | .scan a => .scan { a with paths := a.paths ++ [path] }
  | r => r

/-- The request with a switch turned on. A request for something other than a scan
stays as it is. -/
def Request.turnOn (r : Request) (switch : Switch) : Request :=
  match r with
  | .scan a =>
    match switch with
    | .excludeHidden => .scan { a with excludeHidden := true }
    | .includeVersionControl => .scan { a with includeVersionControl := true }
    | .includeVendored => .scan { a with includeVendored := true }
    | .version => .version
    | .help => .help
  | r => r

/-- Cuts an option at its first equals sign. -/
def nameAndValue (option : Text) : Text × Option Text :=
  match option.dropWhile (· ≠ '=') with
  | [] => (option, none)
  | _ :: value => (option.takeWhile (· ≠ '='), some value)

/-- Whether an argument is an option; a hyphen alone is a path. -/
def isOption (argument : Text) : Bool := argument.head? = some '-' && argument.length ≠ 1

/-- The setting that an option names, with its value if that is part of the option. -/
def setting? (option : Text) : Except UsageError (Switch ⊕ Setting × Option Text) :=
  let (name, given) := nameAndValue option
  match longOption? name with
  | some (.inr switch) =>
    if given.isSome then .error (.unwantedValue option) else .ok (.inl switch)
  | some (.inl setting) => .ok (.inr (setting, given))
  | none =>
    match option with
    | '-' :: letter :: value =>
      if letter = outputLetter then
        .ok (.inr (.output, if value = [] then none else some value))
      else .error (.unknown option)
    | _ => .error (.unknown option)

/-- The request `r` with what further arguments ask for. -/
def Request.extend (r : Request) : List Text → Except UsageError Request
  | [] => .ok r
  | argument :: arguments =>
    if argument = ['-', '-'] then .ok (arguments.foldl addPath r)
    else if !isOption argument then (r.addPath argument).extend arguments
    else
      match setting? argument with
      | .error e => .error e
      | .ok (.inl switch) => (r.turnOn switch).extend arguments
      | .ok (.inr (setting, some value)) => (r.set value setting).extend arguments
      | .ok (.inr (setting, none)) =>
        match arguments with
        | [] => .error (.missingValue argument)
        | value :: arguments => (r.set value setting).extend arguments

/-- What arguments ask for. -/
def Request.ofArguments (arguments : List Text) : Except UsageError Request :=
  Request.extend (.scan {}) arguments

end SourceNotes.Command
