import InferenceConfig.Cli.Run

/-!
# The Program

The command line program carries out the work of a command on real files. Everything it
decides is decided by `Run.plan`; this module only reads, writes and prints.
-/

namespace InferenceConfig

/-- The error of a file operation, as far as the program tells them apart. -/
def fileError : IO.Error → IoError
  | .noFileOrDirectory _ _ _ => .notFound
  | .inappropriateType _ code details =>
    if code = 20 then .notDirectory
    else if code = 21 then .isDirectory
    else .other details
  | e => .other (toString e)

/-- Carries out a task on real files, and logs the events that pass the filter. -/
def perform {α : Type} (filter : LogFilter) : FileTask α → IO α
  | .done result => pure result
  | .log event next => do
    if filter.admits event then
      IO.eprintln event.line
    perform filter next
  | .read location next => do
    let answer ← try
        let bytes ← IO.FS.readBinFile location.display
        pure (.ok bytes.toList)
      catch e => pure (.error (fileError e))
    perform filter (next answer)
  | .write location bytes next => do
    let answer ← try
        IO.FS.writeBinFile location.display ⟨bytes.toArray⟩
        pure none
      catch e => pure (some (fileError e))
    perform filter (next answer)

end InferenceConfig

open InferenceConfig in
/-- Runs the program and gives its exit code. -/
def main (arguments : List String) : IO UInt32 := do
  let (filter, task) := Run.plan arguments
  for complaint in filter.complaints do
    IO.eprintln complaint
  let outcome ← perform filter task
  IO.print outcome.output
  IO.eprint outcome.error
  return outcome.exit.toUInt32
