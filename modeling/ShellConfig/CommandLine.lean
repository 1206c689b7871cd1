import ShellConfig.Config.Json
import ShellConfig.Interpreter

/-!
The command line: a list of files to load, among values to add to variables, and in the end the
configuration as JSON. What comes first is there for what comes later.
-/

set_option autoImplicit false

namespace ShellConfig
namespace CommandLine

/-- What an argument asks for. -/
inductive Argument where
  /-- Add a value to a variable. -/
  | value (name text : String)
  /-- Load a file. -/
  | file (path : String)
deriving DecidableEq

/-- What an argument asks for. With a `=` in it, it is a name and a value, parted at the first one.
-/
def Argument.ofString (argument : String) : Argument :=
  match argument.toList.span (· ≠ '=') with
  | (_, []) => .file argument
  | (name, _ :: text) => .value (String.ofList name) (String.ofList text)

/-- Does what one argument asks for. The warnings of a file count once it has been loaded. -/
def evaluateArgument (files : FileTree) (argument : String) : Evaluation Unit := fun session =>
  match Argument.ofString argument with
  | .value name text => (.ok (), { session with config := session.config.append name [text] })
  | .file path =>
    match Interpreter.standard.load files path session.config with
    | (.ok warnings, config) => (.ok (), ⟨config, session.warnings ++ warnings⟩)
    | (.error error, config) => (.error error, { session with config })

/-- Does what the arguments ask for in turn, up to the first that fails. -/
def evaluateArguments (files : FileTree) : List String → Evaluation Unit
  | [] => fun session => (.ok (), session)
  | argument :: rest => fun session =>
    match evaluateArgument files argument session with
    | (.ok _, session) => evaluateArguments files rest session
    | (.error error, session) => (.error error, session)

/-- What a run of the command answers. -/
structure Report where
  /-- Zero if all went well. -/
  exitCode : Nat
  /-- What is printed. -/
  output : String
  /-- The warnings about the files that were loaded. -/
  warnings : List Warning
  /-- What ended the run too early. -/
  error : Option Error

/-- Runs the command. -/
def report (files : FileTree) (arguments : List String) : Report :=
  match evaluateArguments files arguments (.ofConfig .empty) with
  | (.ok _, session) => ⟨0, session.config.indentedJson ++ "\n", session.warnings, none⟩
  | (.error error, session) => ⟨1, "", session.warnings, some error⟩

end CommandLine
end ShellConfig
