import ShellConfig.CommandLine

/-!
The command itself: `NAME=value` adds a value to a variable, any other argument is a file to load,
and the configuration is printed as JSON.
-/

set_option autoImplicit false

namespace ShellConfig

/-- Runs the command on the files that have been read so far, and again with each file that it
lacks, until it has all it asks for or one cannot be read. -/
partial def runReading (arguments tried : List String) (files : FileTree) :
    IO CommandLine.Report := do
  let report := CommandLine.report files arguments
  match report.error with
  | some (.file path _ .missing) =>
    if path ∈ tried then return report
    try
      let contents ← IO.FS.readBinFile path
      runReading arguments (path :: tried) (files.addFile path contents)
    catch _ => return report
  | _ => return report

end ShellConfig

/-- Prints the configuration that the arguments describe. -/
def main (arguments : List String) : IO UInt32 := do
  let report ← ShellConfig.runReading arguments [] .empty
  for warning in report.warnings do
    IO.eprintln warning.message
  if let some error := report.error then
    IO.eprintln error.message
  IO.print report.output
  return report.exitCode.toUInt32
