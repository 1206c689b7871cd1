import ShellConfig.Lexer.State
import ShellConfig.Session

/-!
One step of the scan of a text. A step reads one piece, or looks at the next character to decide
what the next piece is; at the end of a line it also does what the line asks for.
-/

set_option autoImplicit false

namespace ShellConfig

/-- What surrounds the scan of a text. -/
structure Scope where
  /-- The name of the text. -/
  source : String
  /-- What is done about references to variables that are not set. -/
  undefined : UndefinedPolicy
  /-- Carries out the directive of a line at a place. -/
  perform : DirectiveCall → Location → Evaluation Unit

namespace Scope

/-- The error for a fault in the text. -/
def lexError (scope : Scope) (cursor : Cursor) (failure : LexFailure) : Error :=
  .lexical failure.fault (Location.ofOffset scope.source cursor.text failure.offset)

/-- Deals with a reference to a variable that is not set. -/
def undefinedVariable (scope : Scope) (name : String) (location : Location) : Evaluation Unit :=
  fun session =>
    match scope.undefined with
    | .warn => (.ok (), session.warn ⟨name, location⟩)
    | .refuse => (.error (.lexical (.undefinedVariable name) location), session)

end Scope

namespace Lexer

/-- The place of an offset in the text. -/
def locate (lexer : Lexer) (scope : Scope) (offset : Nat) : Location :=
  Location.ofOffset scope.source lexer.cursor.text offset

/-- Reads a reference and puts the values of its variable into the word or the line. -/
def readReference (scope : Scope) (lexer : Lexer) : Evaluation Lexer := fun session =>
  match lexer.read? Token.reference with
  | none => (.error (scope.lexError lexer.cursor (lexer.failure .invalidReference)), session)
  | some (reference, next) =>
    match session.config.expand reference lexer.inQuotes with
    | .joined text => (.ok (next.addText lexer.cursor.start text), session)
    | .words values => (.ok (next.addWords lexer.cursor.start values), session)
    | .undefined =>
      Evaluation.map (fun _ => next)
        (scope.undefinedVariable reference.name (lexer.locate scope lexer.cursor.start)) session

/-- Does with the words of the line what its operation says. A directive belongs to the place where
its line begins. -/
def endLine (scope : Scope) (lexer : Lexer) : Evaluation Unit := fun session =>
  match lexer.pending.apply lexer.endWord.line session.config with
  | (config, none) => (.ok (), { session with config })
  | (config, some words) =>
    match DirectiveCall.ofWords? words with
    | none => (.ok (), { session with config })
    | some call =>
      scope.perform call
        (lexer.locate scope (lexer.lineStart.getD lexer.cursor.start)) { session with config }

/-- Reads the end of a line and does what the line asks for. -/
def readLineEnd (scope : Scope) (reader : Reader Unit) (lexer : Lexer) : Evaluation Lexer :=
  fun session =>
    match lexer.read? reader with
    | none =>
      (.error (scope.lexError lexer.cursor (lexer.failure .invalidLineBreak)), session)
    | some (_, next) => Evaluation.map (fun _ => next.clearLine) (next.endLine scope) session

end Lexer

/-- What a scan does next: go on in a mode, or stop. -/
abbrev Continuation : Type := Option (Mode × Lexer)

namespace Scope

/-- Goes on in a mode if a piece was read. -/
def continueIn (scope : Scope) (cursor : Cursor) (mode : Mode)
    (result : Except LexFailure Lexer) : Except Error Continuation :=
  match result with
  | .ok lexer => .ok (some (mode, lexer))
  | .error failure => .error (scope.lexError cursor failure)

end Scope

/-- One step of a scan. -/
def Lexer.step (scope : Scope) (mode : Mode) (lexer : Lexer) : Evaluation Continuation :=
  fun session =>
    match mode with
    | .beginOfLine => (.ok (some (.dispatch, lexer.beginLine)), session)
    | .dispatch =>
      match lexer.nextMode with
      | .ok next => (.ok (some (next, lexer)), session)
      | .error failure => (.error (scope.lexError lexer.cursor failure), session)
    | .bareText =>
      (scope.continueIn lexer.cursor .dispatch (lexer.readText Token.bareText "bare text"),
        session)
    | .quotedText =>
      (scope.continueIn lexer.cursor .dispatch
        (lexer.readText Token.quotedText "double quoted text"), session)
    | .whiteSpace => (scope.continueIn lexer.cursor .dispatch lexer.readSeparator, session)
    | .backslash => (scope.continueIn lexer.cursor .dispatch lexer.readEscaped, session)
    | .singleQuoted => (scope.continueIn lexer.cursor .dispatch lexer.readSingleQuoted, session)
    | .doubleQuote => (scope.continueIn lexer.cursor .dispatch lexer.readDoubleQuote, session)
    | .reference =>
      Evaluation.map (fun next => some (.dispatch, next)) (lexer.readReference scope) session
    | .comment =>
      Evaluation.map (fun next => some (.beginOfLine, next))
        (lexer.readLineEnd scope Token.comment) session
    | .lineBreak =>
      Evaluation.map (fun next => some (.beginOfLine, next))
        (lexer.readLineEnd scope Token.lineEnds) session
    | .finish => Evaluation.map (fun _ => none) (lexer.endLine scope) session

end ShellConfig
