import StructuredText.Batch
import StructuredText.Formatting
import StructuredText.SourceFile.Json
import StructuredText.Usage

/-!
# The command line

The program reads the files it is given and prints each in its regular form, or as a tree in JSON.
Files that fail are reported on the error stream and keep the others from being printed, unless
partial results are asked for. What is printed depends only on the arguments and on what the files
hold, so the program is a function of both.

* `Request.ofArgs` — what a list of arguments asks for.
* `Invocation.run` — what the program prints, and its exit code.
-/

namespace StructuredText

/-! ## Arguments -/

/-- A run of the program on files. -/
structure Invocation where
  files : List String := []
  /-- How much is logged. -/
  verbosity : Nat := 0
  keepPartial : Bool := false
  asJson : Bool := false
  settingsFile : Option String := none
  deriving DecidableEq, Repr

/-- What a list of arguments asks for. -/
inductive Request where
  | process (invocation : Invocation)
  | version
  /-- How the program is used, in full or in brief. -/
  | help (full : Bool)
  /-- The arguments do not fit together. -/
  | invalid
  deriving DecidableEq, Repr

namespace Invocation

/-- The run with one more file. Files have names. -/
def addFile? (i : Invocation) (name : String) : Option Invocation :=
  if name.isEmpty then none else some { i with files := i.files ++ [name] }

/-- The run with settings from a file, which is named at most once. -/
def addSettings? (i : Invocation) (name : String) : Option Invocation :=
  if name.isEmpty || i.settingsFile.isSome then none else some { i with settingsFile := some name }

/-- The request for a run, which needs at least one file. -/
def request (i : Invocation) : Request := if i.files.isEmpty then .invalid else .process i

end Invocation

/-- What a single argument asks for. -/
inductive Argument where
  | file (name : String)
  /-- All that follows are files. -/
  | filesOnly
  | verbose
  | debug
  | json
  /-- Settings from a file, which the next argument names if this one does not. -/
  | settings (file : Option String)
  | version
  | help (full : Bool)
  | unknown
  deriving DecidableEq, Repr

/-- What an argument of two dashes and a word asks for. -/
def Argument.ofWord (word : List Char) : Argument :=
  match String.ofList word with
  | "" => .filesOnly
  | "verbose" => .verbose
  | "debug" => .debug
  | "json" => .json
  | "settings" => .settings none
  | "version" => .version
  | "help" => .help true
  | _ =>
    let option := "settings=".toList
    if option.isPrefixOf word then .settings (some (String.ofList (word.drop option.length)))
    else .unknown

/-- What a letter behind a single dash asks for. -/
def Argument.ofLetter : Char → Argument
  | 'v' => .verbose
  | 'V' => .version
  | 'h' => .help false
  | _ => .unknown

/-- What an argument asks for, one thing for each letter behind a single dash. A dash alone is the
name of a file. -/
def Argument.ofString (arg : String) : List Argument :=
  match arg.toList with
  | '-' :: '-' :: word => [ofWord word]
  | '-' :: c :: cs => (c :: cs).map ofLetter
  | _ => [.file arg]

/-- What the arguments ask for, in order. -/
def Argument.ofStrings : List String → List Argument
  | [] => []
  | arg :: rest =>
    match ofString arg with
    | [.filesOnly] => .filesOnly :: rest.map .file
    | arguments => arguments ++ ofStrings rest

/-- Takes up arguments one after the other. The first one that asks for the version or for help, or
that does not fit, decides. -/
def Request.ofArguments (i : Invocation) : List Argument → Request
  | [] => i.request
  | .filesOnly :: rest => ofArguments i rest
  | .file name :: rest =>
    match i.addFile? name with
    | some i => ofArguments i rest
    | none => .invalid
  | .verbose :: rest => ofArguments { i with verbosity := i.verbosity + 1 } rest
  | .debug :: rest =>
    if i.keepPartial then .invalid else ofArguments { i with keepPartial := true } rest
  | .json :: rest => if i.asJson then .invalid else ofArguments { i with asJson := true } rest
  | .settings (some name) :: rest | .settings none :: .file name :: rest =>
    match i.addSettings? name with
    | some i => ofArguments i rest
    | none => .invalid
  | .settings none :: _ => .invalid
  | .version :: _ => .version
  | .help full :: _ => .help full
  | .unknown :: _ => .invalid

/-- What a list of arguments asks for. -/
def Request.ofArgs (args : List String) : Request := ofArguments {} (Argument.ofStrings args)

/-! ## Runs -/

/-- What is read from a file of a given name. -/
abbrev Files := String → Except ReadFailure Text

/-- What a run prints, and its exit code. -/
structure Transcript where
  exitCode : Nat := 0
  stdout : String := ""
  stderr : String := ""
  deriving DecidableEq, Repr

namespace Invocation

/-- The files a run may read. -/
def paths (i : Invocation) : List String := i.settingsFile.toList ++ i.files

/-- The settings of a run. -/
def settings (i : Invocation) (files : Files) : Except Error Settings :=
  match i.settingsFile with
  | none => pure {}
  | some path => do
    let text ← (files path).mapError (.unreadable path)
    Settings.read text

/-- The sources of a run: those that can be read, in order. -/
def sources (i : Invocation) (files : Files) : List Source :=
  i.files.filterMap fun path =>
    match files path with
    | .ok text => some { name := path, filename := path, text }
    | .error _ => none

/-- The files of a run that cannot be read. -/
def unreadable (i : Invocation) (files : Files) : List (String × ReadFailure) :=
  i.files.filterMap fun path =>
    match files path with
    | .ok _ => none
    | .error failure => some (path, failure)

/-- The batch of a run: what was read, and behind it what could not be. -/
def batch (i : Invocation) (settings : Settings) (files : Files) : Batch :=
  (Batch.parse settings (i.sources files)).addFailures <|
    (i.unreadable files).map fun (path, failure) => (path, path, .unreadable path failure)

/-- What is printed for a file. Among several files each has its name above it. -/
def shown (i : Invocation) (name : String) (f : SourceFile) : String :=
  if i.asJson then (json f).pretty 0 ++ "\n"
  else
    (if 1 < i.files.length then "(* " ++ name ++ " *)\n" else "") ++ String.ofList f.render ++ "\n"

/-- What is reported of a file that failed. -/
def failureReport (entry : Batch.Entry) (error : Error) : String :=
  "error: " ++ entry.filename ++ " [" ++ error.kind ++ "]\n  " ++ error.message ++ "\n"

/-- Runs the program. -/
def run (i : Invocation) (files : Files) : Transcript :=
  match i.settings files with
  | .error e => { exitCode := 2, stderr := "error: " ++ e.message ++ "\n" }
  | .ok settings =>
    let batch := i.batch settings files
    let printed := (batch.sources? (settings.keepPartial || i.keepPartial)).getD []
    { exitCode := if batch.succeeded then 0 else 1
      stdout := String.join (printed.map fun (name, f) => i.shown name f)
      stderr := String.join (batch.failures.map fun (entry, error) => failureReport entry error) }

end Invocation

/-- The name and version of the program. -/
def versionLine : String := "plc_st_ast 0.1.0"

/-- What the program prints for a list of arguments. -/
def Request.run (files : Files) : Request → Transcript
  | .process i => i.run files
  | .version => { stdout := versionLine ++ "\n" }
  | .help full => { stdout := if full then Usage.full else Usage.brief }
  | .invalid => { exitCode := 2, stderr := "error: invalid arguments\n\n" ++ Usage.synopsis }

end StructuredText
