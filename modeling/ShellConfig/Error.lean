import ShellConfig.File.Fault
import ShellConfig.Source.Position
import ShellConfig.Text.Quoted

/-!
What can go wrong, and how it is told. An error says where it arose and why; a directive that failed
also has a cause of its own, which may be another error. `Error.chain` lists the nested causes from
the outermost to the root.
-/

set_option autoImplicit false

namespace ShellConfig

/-- What is wrong with a text as such. -/
inductive LexFault where
  /-- A single quote is never closed. -/
  | unterminatedSingleQuote
  /-- A double quote is never closed. -/
  | unterminatedDoubleQuote
  /-- A dollar sign begins no reference. -/
  | invalidReference
  /-- A carriage return ends no line. -/
  | invalidLineBreak
  /-- A backslash ends the text. -/
  | danglingBackslash
  /-- Something else that was expected is not there. -/
  | invalid (what : String)
  /-- A reference names a variable that is not set. -/
  | undefinedVariable (name : String)
deriving DecidableEq

namespace LexFault

/-- The fault in words. -/
def describe : LexFault → String
  | unterminatedSingleQuote => "Unterminated single-quoted string"
  | unterminatedDoubleQuote => "Unterminated double-quoted string"
  | invalidReference => "Invalid variable reference"
  | invalidLineBreak => "Invalid line break"
  | danglingBackslash => "Dangling backslash at end of input"
  | invalid what => "Invalid " ++ what
  | undefinedVariable name => "Undefined variable " ++ quoted name

/-- The fault and its place in words. -/
def describeAt (fault : LexFault) (location : Location) : String :=
  fault.describe ++ " at " ++ location.display

end LexFault

mutual

/-- Why a directive is not carried out. -/
inductive DirectiveFault where
  /-- `include` is given so many paths, and not one. -/
  | includeArity (count : Nat)
  /-- There is no directive of this name. -/
  | unknown (name : String)
  /-- The directive of this name gave up. -/
  | failed (name : String) (cause : Cause)
  /-- The file to be included is being loaded already. -/
  | includeCycle (path : String)
  /-- As many files as may be are being loaded already. -/
  | includeDepthExceeded (limit : Nat)

/-- Why a text or file cannot be evaluated. -/
inductive Error where
  /-- The text is wrong as such. -/
  | lexical (fault : LexFault) (location : Location)
  /-- A directive is not carried out. -/
  | directive (fault : DirectiveFault) (location : Location)
  /-- A file cannot be used; the place is that of the line that includes it, if one does. -/
  | file (path : String) (location : Option Location) (fault : FileFault)

/-- Why a directive gave up. -/
inductive Cause where
  /-- A reason in words, by an error that may have causes of its own. -/
  | text (message : String) (causes : List String := [])
  /-- An error of an evaluation of its own. -/
  | error (error : Error)

end

mutual

/-- The fault and its place in words. -/
def DirectiveFault.describeAt : DirectiveFault → Location → String
  | .includeArity count, location =>
    "Include expects exactly one path, got " ++ toString count ++ " at " ++ location.display
  | .unknown name, location => "Unknown command ." ++ name ++ " at " ++ location.display
  | .failed name cause, location =>
    "Command ." ++ name ++ " failed at " ++ location.display ++ ": " ++ cause.message
  | .includeCycle path, location =>
    "Include cycle detected at " ++ location.display ++ ": " ++ path ++ " is already being loaded"
  | .includeDepthExceeded limit, location =>
    "Maximum include depth " ++ toString limit ++ " exceeded at " ++ location.display

/-- The error in words. -/
def Error.message : Error → String
  | .lexical fault location => "Lexical error: " ++ fault.describeAt location
  | .directive fault location => "Directive error: " ++ fault.describeAt location
  | .file path _ fault => "IO error on " ++ path ++ ": " ++ fault.message

/-- The cause in words. -/
def Cause.message : Cause → String
  | .text message _ => message
  | .error error => error.message

end

mutual

/-- What the causes behind a directive's fault say. -/
def DirectiveFault.chain : DirectiveFault → List String
  | .failed _ cause => cause.message :: cause.chain
  | .includeArity _ | .unknown _ | .includeCycle _ | .includeDepthExceeded _ => []

/-- What the causes behind an error say, the nearest one first. -/
def Error.chain : Error → List String
  | .lexical fault location => [fault.describeAt location]
  | .directive fault location => fault.describeAt location :: fault.chain
  | .file _ _ fault => fault.message :: fault.causes

/-- What the causes behind a cause say. -/
def Cause.chain : Cause → List String
  | .text _ causes => causes
  | .error error => error.chain

end

/-- The place to which an error belongs. -/
def Error.location? : Error → Option Location
  | .lexical _ location | .directive _ location => some location
  | .file _ location _ => location

/-- A reference to a variable that is not set, which was passed over. -/
structure Warning where
  /-- The name of the variable. -/
  name : String
  /-- The place of the reference. -/
  location : Location
deriving DecidableEq

/-- The warning in words. -/
def Warning.message (warning : Warning) : String :=
  warning.location.display ++ ": WARNING: Undefined variable " ++ quoted warning.name

end ShellConfig
