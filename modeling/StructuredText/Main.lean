import StructuredText.CommandLine

/-!
# The program

Reads the files that the arguments name, runs the request on what they hold, and prints the result.
-/

namespace StructuredText

/-- Whether an error has a number, which comes with either sign. -/
def hasNumber (code number : UInt32) : Bool := code == number || code == 0 - number

/-- What a failed attempt to read a file comes from. -/
def ReadFailure.ofError (e : IO.Error) : ReadFailure :=
  match e with
  | .noFileOrDirectory .. => .missing
  | .permissionDenied .. => .forbidden
  | .inappropriateType _ code _ => if hasNumber code 20 then .notDirectory else .directory
  | .invalidArgument _ code _ =>
    if hasNumber code 36 then .nameTooLong else .other (toString e)
  | e => .other (toString e)

/-- Reads a file as a text. -/
def readText (path : String) : IO (Except ReadFailure Text) := do
  try
    match String.fromUTF8? (← IO.FS.readBinFile path) with
    | some s => pure (.ok s.toList)
    | none => pure (.error .notText)
  catch e => pure (.error (.ofError e))

/-- Reads the files of a request. -/
def Request.readFiles : Request → IO (List (String × Except ReadFailure Text))
  | .process i => i.paths.mapM fun path => do pure (path, ← readText path)
  | _ => pure []

end StructuredText

open StructuredText in
/-- Runs the program on its arguments. -/
def main (args : List String) : IO UInt32 := do
  let request := Request.ofArgs args
  let held ← request.readFiles
  let transcript := request.run fun path => (held.lookup path).getD (.error .missing)
  (← IO.getStdout).putStr transcript.stdout
  (← IO.getStderr).putStr transcript.stderr
  pure transcript.exitCode.toUInt32
