/-
Settings from the environment.

Settings come from environment variables whose names begin with TODOSCAN_, in
capital or small letters, and from a file `.env` in the working folder. The
environment comes first, and a variable that is empty counts.

* **`Settings.load`** — the settings in force.
-/
import SourceNotes.Charset.Lenient
import SourceNotes.FileTree
import SourceNotes.Settings.EnvFile

namespace SourceNotes

/-- The settings of the program. -/
structure Settings where
  appName : Text := "todoscan".toList
  appEnv : Text := "development".toList
  /-- One of `Settings.logLevels`. -/
  logLevel : Text := "WARNING".toList
  charset : Text := "utf-8".toList
  kinds : Text := []
  output : Text := "default".toList
  deriving DecidableEq, Repr

namespace Settings

/-- Why settings cannot be used. -/
inductive Error where
  /-- The name of a log level is unknown. -/
  | logLevel (given : Text)
  /-- The file is there, but cannot be read. -/
  | unreadable (cause : SystemError)
  /-- The file is not UTF-8. -/
  | notText
  deriving DecidableEq, Repr

/-- The names of log levels. -/
def logLevels : List Text :=
  ["DEBUG", "INFO", "WARNING", "ERROR", "CRITICAL"].map String.toList

/-- A character as a capital letter, as far as log levels can tell: the dotless i
and the long s have capitals in ASCII. -/
def capitalLetter (c : Char) : Char :=
  if c = '\u0131' then 'I' else if c = '\u017f' then 'S' else c.toUpper

/-- What the names of all variables begin with, in small letters. -/
def namePrefix : Text := "todoscan_".toList

/-- The file of variables in the working folder. -/
def fileName : Text := ".env".toList

/-- The value of a setting. Of names that differ in the size of their letters the last
one counts. -/
def find (environment : List (Text × Text)) (inFile : List EnvFile.Binding) (setting : String) :
    Option Text :=
  let isIt (name : Text) : Bool := name.map Char.toLower == namePrefix ++ setting.toList
  match environment.findRev? fun v => isIt v.1 with
  | some (_, value) => some value
  | none => (inFile.findRev? fun v => isIt v.1).bind (·.2)

/-- The settings that variables give. -/
def ofVariables (environment : List (Text × Text)) (inFile : List EnvFile.Binding) :
    Except Error Settings :=
  let get := find environment inFile
  let dflt : Settings := {}
  let given := (get "log_level").getD dflt.logLevel
  let logLevel := given.map capitalLetter
  if logLevels.contains logLevel then
    .ok {
      appName := (get "app_name").getD dflt.appName
      appEnv := (get "app_env").getD dflt.appEnv
      logLevel
      charset := (get "charset").getD dflt.charset
      kinds := (get "todo_types").getD dflt.kinds
      output := (get "output").getD dflt.output }
  else .error (.logLevel given)

/-- What the octets of a file of variables say. -/
def ofOctets (environment : List (Text × Text)) (octets : Octets) :
    Except Error (List EnvFile.Binding) :=
  match Charset.decodeStrict octets with
  | none => .error .notText
  | some s => .ok (EnvFile.values environment (Charset.unifyNewlines s))

/-- The variables in the file of the working folder; anything else in its place counts
as no file. -/
def readFile (environment : List (Text × Text)) (disk : Disk) :
    Except Error (List EnvFile.Binding) :=
  match disk.isFile (.ofText fileName) with
  | .error cause => .error (.unreadable cause)
  | .ok false => .ok []
  | .ok true =>
    match disk.read (.ofText fileName) with
    | .error cause => .error (.unreadable cause)
    | .ok octets => ofOctets environment octets

/-- The settings in force. -/
def load (environment : List (Text × Text)) (disk : Disk) : Except Error Settings := do
  ofVariables environment (← readFile environment disk)

/-- Whether the program runs for its developers. -/
def isDevelopment (s : Settings) : Bool := s.appEnv.map Char.toLower == "development".toList

/-- The kinds of notes that the settings ask for. -/
def kindList (s : Settings) : List Text := Text.commaList s.kinds

end Settings

end SourceNotes
