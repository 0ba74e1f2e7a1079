import Transit.Command.Run

/-!
# The program

Fetches the files that the arguments name, runs the command on their contents, and
passes on its output, its log and its exit code.
-/

namespace Transit.Command

/-- What the system says about a file that it cannot give. -/
def reasonOf : IO.Error → Unreadable
  | .noFileOrDirectory _ code _ => s!"No such file or directory (os error {code})"
  | .permissionDenied _ code _ => s!"Permission denied (os error {code})"
  | .inappropriateType _ code _ => s!"Is a directory (os error {code})"
  | fault => toString fault

/-- The contents of a file, which must be text. -/
def contents (path : String) : IO (Except Unreadable String) := do
  try
    match String.fromUTF8? (← IO.FS.readBinFile path) with
    | some text => return .ok text
    | none => return .error "stream did not contain valid UTF-8"
  catch fault => return .error (reasonOf fault)

/-- The threshold that the environment asks for. -/
def thresholdOfEnvironment : IO Threshold := do
  let name? ← IO.getEnv "TRIP_ROUTER_LOG"
  return (name?.bind Threshold.named?).getD .standard

end Transit.Command

open Transit.Command in
/-- Run the command. -/
def main (arguments : List String) : IO UInt32 := do
  let files ← arguments.mapM fun path => return (path, ← contents path)
  let file (path : String) := (files.lookup path).getD (.error "not an argument")
  let outcome := run arguments file (← thresholdOfEnvironment)
  IO.eprint outcome.log
  IO.print outcome.output
  return UInt32.ofNat outcome.exitCode
