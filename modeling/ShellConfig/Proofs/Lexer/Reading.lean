import ShellConfig.Proofs.Correspondence
import ShellConfig.Proofs.Lexer.Steps

/-!
What of the state of a scan decides how it goes on: the text to come, whether a double quote is open,
the word and the line so far, and what to do with the line. The rest of the state only tells places.
Main statement: scans that agree in this (`Lexer.reading`) have runs that are alike apart from
positions (`run_apart`), when the directives look at no positions (`Scope.IgnoresPositions`).
-/

set_option autoImplicit false

namespace ShellConfig

/-- What of the state of a scan does not depend on how far the text has been read. -/
structure Reading where
  rest : List Char
  inQuotes : Bool
  word : Option String
  line : List String
  pending : Operation

namespace Lexer

def reading (lexer : Lexer) : Reading :=
  ⟨lexer.cursor.rest, lexer.inQuotes, lexer.word, lexer.line, lexer.pending⟩

/-! ## Pieces and readings -/

section
variable (lexer : Lexer)

@[simp] theorem reading_take (length : Nat) :
    (lexer.take length).reading =
      { lexer.reading with rest := lexer.reading.rest.drop length } := rfl

@[simp] theorem reading_addText (start : Nat) (text : String) :
    (lexer.addText start text).reading =
      { lexer.reading with word := some (lexer.reading.word.getD "" ++ text) } := rfl

@[simp] theorem reading_endWord :
    lexer.endWord.reading =
      { lexer.reading with
        word := none
        line := lexer.reading.line ++ lexer.reading.word.toList } := rfl

@[simp] theorem reading_addWords (start : Nat) (words : List String) :
    (lexer.addWords start words).reading =
      { lexer.reading with
        word := none
        line := lexer.reading.line ++ lexer.reading.word.toList ++ words } := rfl

@[simp] theorem reading_clearLine :
    lexer.clearLine.reading =
      { lexer.reading with word := none, line := [], pending := .plain } := rfl

theorem reading_quote (quote : Option Nat) :
    { lexer with quote }.reading = { lexer.reading with inQuotes := quote.isSome } := rfl

end

theorem reading_beginLine_eq (lexer : Lexer) :
    lexer.beginLine.reading =
      { lexer.reading with
        rest := lexer.cursor.rest.drop (Token.lineBeginning lexer.cursor.rest).length
        pending := match (Token.lineBeginning lexer.cursor.rest).value with
          | some (name, sign) => .assignment name sign
          | none =>
            if (lexer.cursor.rest.drop
                (Token.lineBeginning lexer.cursor.rest).length).head? = some '.' then .directive
            else lexer.pending } := by
  unfold beginLine
  generalize Token.lineBeginning lexer.cursor.rest = beginning
  rcases beginning with ⟨length, _ | ⟨name, sign⟩⟩
  · have hp : (lexer.take length).cursor.peek = (lexer.cursor.rest.drop length).head? := rfl
    simp only [hp]
    split <;> rfl
  · rfl

/-- What a piece gives, apart from places. -/
def piece : Except LexFailure Lexer → Except LexFault Reading
  | .ok lexer => .ok lexer.reading
  | .error failure => .error failure.fault

/-- The mode that the next character asks for, apart from places. -/
def choice : Except LexFailure Mode → Except LexFault Mode
  | .ok mode => .ok mode
  | .error failure => .error failure.fault

section Agreement
variable {left right : Lexer}

theorem reading_addText_congr (h : left.reading = right.reading) (start other : Nat)
    (text : String) : (left.addText start text).reading = (right.addText other text).reading := by
  rw [reading_addText, reading_addText, h]

theorem reading_endWord_congr (h : left.reading = right.reading) :
    left.endWord.reading = right.endWord.reading := by
  rw [reading_endWord, reading_endWord, h]

/-- Two scans that agree read a piece alike, if what they do with its value keeps the agreement. -/
theorem piece_readPiece {α : Type} {reader : Reader α} {fault : LexFault}
    {use other : α → Lexer → Lexer} (h : left.reading = right.reading)
    (huse : ∀ value (next after : Lexer), next.reading = after.reading →
      (use value next).reading = (other value after).reading) :
    piece (left.readPiece reader fault use) = piece (right.readPiece reader fault other) := by
  have hr : left.cursor.rest = right.cursor.rest := congrArg Reading.rest h
  rw [readPiece_eq, readPiece_eq, hr]
  cases reader right.cursor.rest with
  | none => rfl
  | some found =>
    have htake : (left.take found.length).reading = (right.take found.length).reading := by
      rw [reading_take, reading_take, h]
    exact congrArg Except.ok (huse found.value _ _ htake)

theorem piece_readDoubleQuote (h : left.reading = right.reading) :
    piece left.readDoubleQuote = piece right.readDoubleQuote := by
  have hr : left.cursor.rest = right.cursor.rest := congrArg Reading.rest h
  have hq : left.inQuotes = right.inQuotes := congrArg Reading.inQuotes h
  rw [readDoubleQuote_eq, readDoubleQuote_eq, hr, hq]
  split <;> simp [piece, failure, reading_quote, h]

theorem nextMode_of_reading (h : left.reading = right.reading) :
    choice left.nextMode = choice right.nextMode := by
  have hr : left.cursor.peek = right.cursor.peek :=
    congrArg (fun reading : Reading => reading.rest.head?) h
  have hq : left.inQuotes = right.inQuotes := congrArg Reading.inQuotes h
  unfold nextMode
  rw [hr]
  unfold inQuotes at hq
  cases hleft : left.quote <;> cases hright : right.quote <;> simp [hleft, hright] at hq
  · cases right.cursor.peek <;> rfl
  · cases right.cursor.peek <;> simp [choice]

theorem reading_beginLine (h : left.reading = right.reading) :
    left.beginLine.reading = right.beginLine.reading := by
  have hr : left.cursor.rest = right.cursor.rest := congrArg Reading.rest h
  have hp : left.pending = right.pending := congrArg Reading.pending h
  rw [reading_beginLine_eq, reading_beginLine_eq, h, hr, hp]

end Agreement

end Lexer

/-! ## Runs -/

/-- Directives that are carried out at two places of one text have the same effect, whatever
warnings came before, and errors that differ in their positions only. -/
def Scope.IgnoresPositions (scope : Scope) : Prop :=
  ∀ (earlier : List Warning) (call : DirectiveCall) (here there : Location) (s t : Session),
    here.source = there.source → (Correspondence.apart earlier).sessions s t →
      (Correspondence.apart earlier).RelatesUnits (scope.perform call here s)
        (scope.perform call there t)

namespace Lexer
open Correspondence

/-- The states of two scans that agree in their readings. -/
def Agree (left right : Lexer) : Prop := left.reading = right.reading

section Runs
variable {scope : Scope} {earlier : List Warning} {left right : Lexer} {s t : Session}

theorem relates_continueIn {cursor other : Cursor} {mode : Mode}
    {found next : Except LexFailure Lexer} (h : piece found = piece next)
    (hs : (apart earlier).sessions s t) :
    (apart earlier).Relates (Continues fun _ => Agree) (scope.continueIn cursor mode found, s)
      (scope.continueIn other mode next, t) := by
  rcases found with failure | found <;> rcases next with other | next
  · have hf : failure.fault = other.fault := Except.error.inj h
    refine ⟨?_, hs⟩
    simp [apart, Scope.lexError, Error.unplaced, Location.unplaced, Location.ofOffset, hf]
  · cases h
  · cases h
  · exact ⟨⟨rfl, Except.ok.inj h⟩, hs⟩

theorem relates_undefinedVariable {name : String} {here there : Location}
    (hl : here.source = there.source) (hs : (apart earlier).sessions s t) :
    (apart earlier).RelatesUnits (scope.undefinedVariable name here s)
      (scope.undefinedVariable name there t) := by
  unfold Scope.undefinedVariable
  cases scope.undefined with
  | warn =>
    refine ⟨trivial, hs.1, ?_⟩
    have hw := hs.2
    simp only [List.map_append] at hw
    simp [Session.warn, hw, Warning.unplaced, Location.unplaced, hl]
  | refuse => exact ⟨by simp [apart, Error.unplaced, Location.unplaced, hl], hs⟩

theorem relates_readReference (h : left.reading = right.reading)
    (hs : (apart earlier).sessions s t) :
    (apart earlier).Relates Agree (left.readReference scope s) (right.readReference scope t) := by
  have hr : left.cursor.rest = right.cursor.rest := congrArg Reading.rest h
  have hq : left.inQuotes = right.inQuotes := congrArg Reading.inQuotes h
  rw [readReference_eq, readReference_eq, hr, hq, hs.1]
  cases Token.reference right.cursor.rest with
  | none =>
    refine ⟨?_, hs⟩
    simp [apart, Scope.lexError, failure, Error.unplaced, Location.unplaced, Location.ofOffset]
  | some found =>
    simp only
    cases t.config.expand found.value right.inQuotes with
    | undefined =>
      have hu : (apart earlier).RelatesUnits
          (scope.undefinedVariable found.value.name (left.locate scope left.cursor.start) s)
          (scope.undefinedVariable found.value.name (right.locate scope right.cursor.start) t) :=
        relates_undefinedVariable rfl hs
      exact hu.map fun _ _ _ => by simp [Agree, h]
    | joined text => exact ⟨by simp [Agree, h], hs⟩
    | words values => exact ⟨by simp [Agree, h], hs⟩

/-- At the end of a line nothing of the text to come matters. -/
theorem relates_endLine (hscope : scope.IgnoresPositions) (hp : left.pending = right.pending)
    (hw : left.endWord.line = right.endWord.line) (hs : (apart earlier).sessions s t) :
    (apart earlier).RelatesUnits (left.endLine scope s) (right.endLine scope t) := by
  unfold endLine
  rw [hp, hw, hs.1]
  rcases right.pending.apply right.endWord.line t.config with ⟨config, _ | words⟩
  · exact ⟨trivial, rfl, hs.2⟩
  · simp only
    cases DirectiveCall.ofWords? words with
    | none => exact ⟨trivial, rfl, hs.2⟩
    | some call => exact hscope _ _ _ _ _ _ rfl ⟨rfl, hs.2⟩

theorem relates_readLineEnd (hscope : scope.IgnoresPositions) {reader : Reader Unit}
    (h : left.reading = right.reading) (hs : (apart earlier).sessions s t) :
    (apart earlier).Relates Agree (left.readLineEnd scope reader s)
      (right.readLineEnd scope reader t) := by
  have hr : left.cursor.rest = right.cursor.rest := congrArg Reading.rest h
  rw [readLineEnd_eq, readLineEnd_eq, hr]
  cases reader right.cursor.rest with
  | none =>
    refine ⟨?_, hs⟩
    simp [apart, Scope.lexError, failure, Error.unplaced, Location.unplaced, Location.ofOffset]
  | some found =>
    have hw := congrArg (fun lexer : Reading => lexer.line ++ lexer.word.toList) h
    have hp : left.pending = right.pending := congrArg Reading.pending h
    have he : (apart earlier).RelatesUnits ((left.take found.length).endLine scope s)
        ((right.take found.length).endLine scope t) := relates_endLine hscope hp hw hs
    exact he.map fun _ _ _ => by simp [Agree, h]

/-- Steps of scans that agree. -/
theorem relates_step (hscope : scope.IgnoresPositions) (mode : Mode)
    (h : left.reading = right.reading)
    (hs : (apart earlier).sessions s t) :
    (apart earlier).Relates (Continues fun _ => Agree) (step scope mode left s)
      (step scope mode right t) := by
  have hadded (text : String) (next after : Lexer) (hn : next.reading = after.reading) :
      (next.addText left.cursor.start text).reading =
        (after.addText right.cursor.start text).reading :=
    reading_addText_congr hn _ _ text
  cases mode with
  | beginOfLine => exact ⟨⟨rfl, reading_beginLine h⟩, hs⟩
  | dispatch =>
    have hm := nextMode_of_reading h
    simp only [step]
    cases hl : left.nextMode <;> cases hr : right.nextMode <;>
      simp only [hl, hr, choice] at hm
    · have hf := Except.error.inj hm
      refine ⟨?_, hs⟩
      simp [apart, Scope.lexError, Error.unplaced, Location.unplaced, Location.ofOffset, hf]
    · cases hm
    · cases hm
    · exact ⟨⟨Except.ok.inj hm, h⟩, hs⟩
  | bareText => exact relates_continueIn (piece_readPiece h hadded) hs
  | quotedText => exact relates_continueIn (piece_readPiece h hadded) hs
  | whiteSpace =>
    exact relates_continueIn (piece_readPiece h fun _ _ _ hn => reading_endWord_congr hn) hs
  | backslash =>
    refine relates_continueIn (piece_readPiece h ?_) hs
    have hq : left.inQuotes = right.inQuotes := congrArg Reading.inQuotes h
    rintro (_ | c) next after hn
    · change reading (if left.inQuotes then _ else _) = reading (if right.inQuotes then _ else _)
      rw [hq]
      split
      · exact hn
      · exact reading_endWord_congr hn
    · exact reading_addText_congr hn _ _ _
  | singleQuoted => exact relates_continueIn (piece_readPiece h hadded) hs
  | doubleQuote => exact relates_continueIn (piece_readDoubleQuote h) hs
  | reference => exact (relates_readReference h hs).map fun _ _ he => ⟨rfl, he⟩
  | comment => exact (relates_readLineEnd hscope h hs).map fun _ _ he => ⟨rfl, he⟩
  | lineBreak => exact (relates_readLineEnd hscope h hs).map fun _ _ he => ⟨rfl, he⟩
  | finish =>
    have hw := congrArg (fun lexer : Reading => lexer.line ++ lexer.word.toList) h
    have hp : left.pending = right.pending := congrArg Reading.pending h
    exact (relates_endLine hscope hp hw hs).map fun _ _ _ => trivial

theorem run_apart (hscope : scope.IgnoresPositions) (mode : Mode) (h : left.reading = right.reading)
    (hs : (apart earlier).sessions s t) :
    (apart earlier).RelatesUnits (run scope mode left s) (run scope mode right t) :=
  have hstep : ∀ mode left right s t, Agree left right → (apart earlier).sessions s t →
      (apart earlier).Relates (Continues fun _ => Agree) (step scope mode left s)
        (step scope mode right t) :=
    fun mode _ _ _ _ ha hsessions => relates_step hscope mode ha hsessions
  run_relates hstep h hs

theorem run_unplaced (hscope : scope.IgnoresPositions) (mode : Mode)
    (h : left.reading = right.reading) (hs : s.unplaced = t.unplaced) :
    (Outcome.unplaced (run scope mode left s)) = Outcome.unplaced (run scope mode right t) :=
  relatesUnits_apart_nil.1 (run_apart hscope mode h (sessions_apart_nil.2 hs))

theorem endLine_eq_ok (hscope : scope.IgnoresPositions) {last : Session}
    (hp : left.pending = right.pending) (hw : left.endWord.line = right.endWord.line)
    (hs : s.unplaced = t.unplaced) (h : left.endLine scope s = (.ok (), last)) :
    ∃ finish, right.endLine scope t = (.ok (), finish) ∧ finish.unplaced = last.unplaced := by
  have hr := relates_endLine hscope hp.symm hw.symm (sessions_apart_nil.2 hs.symm)
  rw [h] at hr
  exact Outcome.eq_ok_of_unplaced (relatesUnits_apart_nil.1 hr)

end Runs

end Lexer

end ShellConfig
