import StructuredText.Build.Children
import StructuredText.Grammar.Refusal
import StructuredText.Settings.Basic

/-!
# Errors

Why a file gives no tree, and why a run cannot start. Each kind of error has a name for reports, and
a message that tells what a person needs to find the cause.
-/

namespace StructuredText

/-- Why a file cannot be read. -/
inductive ReadFailure where
  | missing
  | notText
  | directory
  | notDirectory
  | forbidden
  | nameTooLong
  | other (reason : String)
  deriving DecidableEq, Repr

def ReadFailure.message : ReadFailure → String
  | .missing => "No such file or directory (os error 2)"
  | .notText => "stream did not contain valid UTF-8"
  | .directory => "Is a directory (os error 21)"
  | .notDirectory => "Not a directory (os error 20)"
  | .forbidden => "Permission denied (os error 13)"
  | .nameTooLong => "File name too long (os error 36)"
  | .other reason => reason

/-- Why there is no result. -/
inductive Error where
  /-- A source is not an instance of the grammar. -/
  | refused (filename : String) (refusal : Grammar.Refusal)
  /-- No tree can be built from a derivation. -/
  | construction (filename : String) (cause : ConstructionError)
  /-- A file cannot be read. -/
  | unreadable (path : String) (failure : ReadFailure)
  /-- A text gives no settings. -/
  | settings (fault : Settings.Fault)

namespace Error

/-- The name of the kind of an error. -/
def kind : Error → String
  | .refused .. => "SyntaxError"
  | .construction .. => "ConstructionError"
  | .unreadable .. => "IoError"
  | .settings _ => "SettingsError"

/-- The line of the source that an error is about. -/
def line? : Error → Option Nat
  | .refused _ refusal => some refusal.line
  | .construction _ cause => some cause.line
  | .unreadable .. => none
  | .settings _ => none

def message : Error → String
  | .refused filename refusal =>
    "syntax error in " ++ filename ++ " at line " ++ toString refusal.line ++ "\n" ++
      refusal.report filename
  | .construction filename cause => filename ++ ": " ++ cause.message
  | .unreadable path failure => "failed to read " ++ path ++ ": " ++ failure.message
  | .settings fault => "invalid settings: " ++ fault.message

end Error

end StructuredText
