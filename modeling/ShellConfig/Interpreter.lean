import ShellConfig.Config.Serialize
import ShellConfig.Directives.Basic
import ShellConfig.File.Tree
import ShellConfig.Lexer.Run

/-!
Evaluating texts and files. A file is included into the evaluation of another text, unless too many
files are open, which means that their evaluation has begun and not ended, or one of them is known
as this one is. So the interpreter's limit bounds the nesting of includes.
-/

set_option autoImplicit false

namespace ShellConfig

/-- How texts are evaluated. -/
structure Interpreter where
  /-- The number of open files from which on no more are included. -/
  maxIncludeDepth : Nat := 64
  /-- What is done about references to variables that are not set. -/
  undefined : UndefinedPolicy := .warn
  /-- The directives besides `include`. -/
  directives : Directives := .empty

/-- The name of a text that has none. -/
def unnamedSource : String := "(eval)"

/-- How a text with a name is evaluated while some files are open. -/
abbrev TextEvaluation : Type := List Identity → String → String → Evaluation Unit

namespace Interpreter

/-- The interpreter as it comes, which knows no directive besides `include`. -/
def standard : Interpreter := {}

instance : Inhabited Interpreter := ⟨standard⟩

/-- Opens a file and evaluates it. The location is that of the line that includes it. -/
def openFile (files : FileTree) (nested : TextEvaluation) (active : List Identity) (path : String)
    (location : Option Location) : Evaluation Unit := fun session =>
  match files.openText path with
  | .error fault => (.error (.file path location fault), session)
  | .ok (identity, text) => nested (active ++ [identity]) path text session

/-- Whether a path is known as one of the open files. -/
def isActive (files : FileTree) (active : List Identity) (path : String) : Bool :=
  files.identity path ∈ active

/-- Includes a file, unless too many files are open or this one is. -/
def includeFile (interpreter : Interpreter) (files : FileTree) (nested : TextEvaluation)
    (active : List Identity) (path : String) (location : Location) :
    Evaluation Unit := fun session =>
  if interpreter.maxIncludeDepth ≤ active.length then
    (.error (.directive (.includeDepthExceeded interpreter.maxIncludeDepth) location), session)
  else if isActive files active path then
    (.error (.directive (.includeCycle path) location), session)
  else openFile files nested active path (some location) session

/-- Carries out a directive in the text with a name. `include` is always there; any other name is
that of a registered directive. -/
def perform (interpreter : Interpreter) (files : FileTree) (nested : TextEvaluation)
    (active : List Identity) (source : String) (call : DirectiveCall) (location : Location) :
    Evaluation Unit := fun session =>
  if call.name = DirectiveCall.includeName then
    match call.arguments with
    | [path] =>
      interpreter.includeFile files nested active (Path.resolve source path) location session
    | arguments => (.error (.directive (.includeArity arguments.length) location), session)
  else
    match interpreter.directives.find? call.name with
    | none => (.error (.directive (.unknown call.name) location), session)
    | some handler =>
      match handler session.config call.name call.arguments with
      | (config, none) => (.ok (), { session with config })
      | (config, some cause) =>
        (.error (.directive (.failed call.name cause) location), { session with config })

/-- Evaluates a text, and the files that it includes by a given evaluation. -/
def evaluateWith (interpreter : Interpreter) (files : FileTree) (nested : TextEvaluation) :
    TextEvaluation := fun active source text =>
  Scope.evaluate
    ⟨source, interpreter.undefined, interpreter.perform files nested active source⟩ text

/-- Evaluates a text when so many files can still be opened. When none can, the limit is reached, so
no text is left to evaluate. -/
def evaluate (interpreter : Interpreter) (files : FileTree) : Nat → TextEvaluation
  | 0 => interpreter.evaluateWith files fun _ _ _ session => (.ok (), session)
  | closed + 1 => interpreter.evaluateWith files (interpreter.evaluate files closed)

/-- The warnings of an evaluation, or its error, and the configuration that it leaves. -/
def outcome (evaluation : Evaluation Unit) (config : Config) :
    Except Error (List Warning) × Config :=
  match evaluation (.ofConfig config) with
  | (result, session) => (result.map fun _ => session.warnings, session.config)

/-- Evaluates a text under a name. The files that it includes count from the directory part of the
name. The configuration is changed also where the evaluation fails. -/
def evalNamed (interpreter : Interpreter) (files : FileTree) (source text : String)
    (config : Config) : Except Error (List Warning) × Config :=
  outcome (interpreter.evaluate files interpreter.maxIncludeDepth [] source text) config

/-- Evaluates a text that has no name. -/
def eval (interpreter : Interpreter) (files : FileTree) (text : String) (config : Config) :
    Except Error (List Warning) × Config :=
  interpreter.evalNamed files unnamedSource text config

/-- Evaluates a file. -/
def load (interpreter : Interpreter) (files : FileTree) (path : String) (config : Config) :
    Except Error (List Warning) × Config :=
  outcome
    (openFile files (interpreter.evaluate files interpreter.maxIncludeDepth) [] path none) config

end Interpreter

namespace Config

/-- The configuration that a text describes. -/
def parse (files : FileTree) (text : String) : Except Error Config :=
  match Interpreter.standard.eval files text empty with
  | (.ok _, config) => .ok config
  | (.error error, _) => .error error

/-- Writes the text of the configuration to a file, with a line feed at its end. -/
def save (config : Config) (files : FileTree) (path : String) : Except Error FileTree :=
  match files.writeText path (config.serialize ++ "\n") with
  | .ok files => .ok files
  | .error fault => .error (.file path none fault)

end Config

end ShellConfig
