import LabelScheduler.CommandLine.Report

/-!
# The program

Files are read from the disk as they are asked for, the journal goes to the standard output, and
complaints about the arguments go to the standard error.
-/

namespace LabelScheduler.CommandLine

/-- What is found on the disk under a path. -/
def findFile (path : String) : IO File := do
  try
    return .bytes (← IO.FS.readBinFile path).toList
  catch
    | .noFileOrDirectory _ _ _ => return .missing
    | .invalidArgument _ 36 _ => return .nameTooLong
    | _ => return .directory

/-- The files that a run may ask for. -/
def gatherFiles (arguments : List String) : IO (List (String × File)) :=
  match Options.parse arguments with
  | .error _ => return []
  | .ok (nodes, o) =>
    (nodes :: o.jobs.toList).mapM fun v => return (v.path, ← findFile v.path)

end LabelScheduler.CommandLine

open LabelScheduler.CommandLine in
/-- The command line of the scheduler. -/
def main (arguments : List String) : IO UInt32 := do
  let found ← gatherFiles arguments
  let report := run (fun p => (found.lookup p).getD .missing) arguments
  IO.print report.output
  if let some fault := report.complaint then
    IO.eprintln ("label-scheduler: error: " ++ fault.message)
  return report.code.toUInt32
