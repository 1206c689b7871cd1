import ShellConfig.Error
import ShellConfig.Lexer.Token
import ShellConfig.Line.Operation

/-!
The state of a scan: a cursor, and what is known of the line that is being read. Each function here
reads one piece of the text and notes what it means for the current word and line. Between two
pieces nothing is left uncommitted.
-/

set_option autoImplicit false

namespace ShellConfig

/-- What is being read. -/
inductive Mode where
  /-- Blanks, empty lines and the name of an assignment. -/
  | beginOfLine
  /-- Nothing yet: the next character decides. -/
  | dispatch
  /-- Text outside quotes. -/
  | bareText
  /-- Text between double quotes. -/
  | quotedText
  /-- Blanks between words. -/
  | whiteSpace
  /-- A backslash and what it makes literal. -/
  | backslash
  /-- Text between single quotes. -/
  | singleQuoted
  /-- A double quote. -/
  | doubleQuote
  /-- A reference to a variable. -/
  | reference
  /-- A comment, which ends the line. -/
  | comment
  /-- The end of a line. -/
  | lineBreak
  /-- The end of the text, which ends the line too. -/
  | finish
deriving DecidableEq

/-- A fault and the byte offset at which it shows. -/
structure LexFailure where
  /-- What is wrong. -/
  fault : LexFault
  /-- Where, in bytes from the beginning of the text. -/
  offset : Nat
deriving DecidableEq

/-- The state of a scan. -/
structure Lexer where
  /-- The text, and how far it has been read. -/
  cursor : Cursor
  /-- The offset of the double quote that is open, if one is. -/
  quote : Option Nat
  /-- The word that is being gathered, if one has begun. -/
  word : Option String
  /-- The words of the line that are complete. -/
  line : List String
  /-- The offset at which the first word of the line begins, if one has. -/
  lineStart : Option Nat
  /-- What to do with the words of the line. -/
  pending : Operation

namespace Lexer

/-- A scan that begins. -/
def ofText (text : String) : Lexer := ⟨.ofText text, none, none, [], none, .plain⟩

/-- Whether a double quote is open. -/
def inQuotes (lexer : Lexer) : Bool := lexer.quote.isSome

/-- A fault at the cursor. -/
def failure (lexer : Lexer) (fault : LexFault) : LexFailure := ⟨fault, lexer.cursor.offset⟩

/-! ## Words and lines -/

/-- Adds text to the current word. If there is none, the text begins one, and if the line has none
either, the line begins with it. -/
def addText (lexer : Lexer) (start : Nat) (text : String) : Lexer :=
  { lexer with
    word := some (lexer.word.getD "" ++ text)
    lineStart := some (lexer.lineStart.getD start) }

/-- Completes the current word, if there is one. -/
def endWord (lexer : Lexer) : Lexer :=
  { lexer with word := none, line := lexer.line ++ lexer.word.toList }

/-- Completes the current word and adds complete words after it. -/
def addWords (lexer : Lexer) (start : Nat) (words : List String) : Lexer :=
  { lexer with
    word := none
    line := lexer.line ++ lexer.word.toList ++ words
    lineStart := some (lexer.lineStart.getD start) }

/-- Forgets the line. -/
def clearLine (lexer : Lexer) : Lexer :=
  { lexer with word := none, line := [], lineStart := none, pending := .plain }

/-! ## Pieces -/

/-- Moves over so many characters and commits to them. -/
def take (lexer : Lexer) (length : Nat) : Lexer :=
  { lexer with cursor := (lexer.cursor.take length).commit.2 }

/-- Reads a piece at the cursor and commits to it. -/
def read? {α : Type} (lexer : Lexer) (reader : Reader α) : Option (α × Lexer) :=
  (lexer.cursor.match? reader).map fun found =>
    (found.1, { lexer with cursor := found.2.commit.2 })

/-- Reads the beginning of a line. An assignment decides what is done with the words; else a dot at
the front makes the line a directive. -/
def beginLine (lexer : Lexer) : Lexer :=
  let beginning := Token.lineBeginning lexer.cursor.rest
  let next := lexer.take beginning.length
  match beginning.value with
  | some (name, sign) => { next with pending := .assignment name sign }
  | none => if next.cursor.peek = some '.' then { next with pending := .directive } else next

/-- The mode for the next character. -/
def nextMode (lexer : Lexer) : Except LexFailure Mode :=
  match lexer.quote, lexer.cursor.peek with
  | some start, none => .error ⟨.unterminatedDoubleQuote, start⟩
  | some _, some c =>
    if c = '\\' then .ok .backslash
    else if c = '$' then .ok .reference
    else if c = '"' then .ok .doubleQuote
    else .ok .quotedText
  | none, none => .ok .finish
  | none, some c =>
    if c = '\r' || c = '\n' then .ok .lineBreak
    else if c = '\\' then .ok .backslash
    else if c = '#' then .ok .comment
    else if c = '$' then .ok .reference
    else if c = '\'' then .ok .singleQuoted
    else if c = '"' then .ok .doubleQuote
    else if isBlank c then .ok .whiteSpace
    else .ok .bareText

/-- Reads a piece and does with its value what is asked for; there is a fault if no such piece is
there. -/
def readPiece {α : Type} (lexer : Lexer) (reader : Reader α) (fault : LexFault)
    (use : α → Lexer → Lexer) : Except LexFailure Lexer :=
  match lexer.read? reader with
  | some (value, next) => .ok (use value next)
  | none => .error (lexer.failure fault)

/-- Reads text that stands for itself, or else lacks what is named. -/
def readText (lexer : Lexer) (reader : Reader String) (what : String) : Except LexFailure Lexer :=
  lexer.readPiece reader (.invalid what) fun text next => next.addText lexer.cursor.start text

/-- Reads blanks, which end the current word. -/
def readSeparator (lexer : Lexer) : Except LexFailure Lexer :=
  lexer.readPiece Token.separator (.invalid "whitespace") fun _ next => next.endWord

/-- Reads a backslash. The character after it is literal; a line end after it is nothing between
double quotes, and ends the current word elsewhere. -/
def readEscaped (lexer : Lexer) : Except LexFailure Lexer :=
  lexer.readPiece Token.escaped .danglingBackslash fun
    | some c, next => next.addText lexer.cursor.start (String.singleton c)
    | none, next => if lexer.inQuotes then next else next.endWord

/-- Reads a text between single quotes, which may be empty. -/
def readSingleQuoted (lexer : Lexer) : Except LexFailure Lexer :=
  lexer.readPiece Token.singleQuoted .unterminatedSingleQuote fun text next =>
    next.addText lexer.cursor.start text

/-- Reads a double quote. It closes the open one. Where none is open, it opens, unless the next one
follows at once: then the two are an empty text. -/
def readDoubleQuote (lexer : Lexer) : Except LexFailure Lexer :=
  match lexer.inQuotes, lexer.read? Token.emptyQuotes with
  | false, some (_, next) => .ok (next.addText lexer.cursor.start "")
  | inside, _ =>
    lexer.readPiece Token.doubleQuote (.invalid "double quote") fun _ next =>
      { next with quote := if inside then none else some lexer.cursor.start }

end Lexer

end ShellConfig
